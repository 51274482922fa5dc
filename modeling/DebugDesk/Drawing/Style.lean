import DebugDesk.Color

/-!
# Styles

How vertices, edges and a whole view look: fonts, colors and distances.
-/
namespace DebugDesk

def opaqueColor (red green blue : Int) : Color Float := Color.ofComponents (red, green, blue) 1.0

structure VertexStyle (α : Type) where
  font : String
  fontSize : α
  /-- For runs without a color of their own. -/
  textColor : Ink
  borderColor : Ink
  borderColorSelected : Ink
  backgroundColor : Ink
  shadowColor : Ink
  shadowColorSelected : Ink
  borderSize : α
  shadowOffset : α
  paddingHorizontal : α
  paddingVertical : α
  paddingLine : α
  /-- Whether layout coordinates are the center of a box, or its top left corner. -/
  centering : Bool

def VertexStyle.standard {α : Type} [Scalar α] : VertexStyle α :=
  { font := "Consolas"
    fontSize := 16.0
    textColor := opaqueColor 0x9b 0x9b 0x9b
    borderColor := opaqueColor 0x2f 0x2f 0x2f
    borderColorSelected := opaqueColor 0x5f 0x5f 0x5f
    backgroundColor := opaqueColor 0x0f 0x0f 0x0f
    shadowColor := opaqueColor 0x08 0x08 0x08
    shadowColorSelected := opaqueColor 0x19 0x19 0x19
    borderSize := 1.0
    shadowOffset := 4.0
    paddingHorizontal := 10.0
    paddingVertical := 20.0
    paddingLine := 5.0
    centering := true }

structure EdgeStyle (α : Type) where
  colorDirect : Ink
  colorTrue : Ink
  colorFalse : Ink
  colorDirectSelected : Ink
  colorTrueSelected : Ink
  colorFalseSelected : Ink
  /-- Distance of sibling edges, as a share of the width of the box they leave. -/
  paddingBetweenEdges : α
  /-- Length of the vertical ends of an edge, and its distance from a box it goes around. -/
  paddingLine : α
  lineWidth : α

def EdgeStyle.standard {α : Type} [Scalar α] : EdgeStyle α :=
  { colorDirect := opaqueColor 0x9b 0x9b 0x9b
    colorTrue := opaqueColor 0x7f 0xff 0x7f
    colorFalse := opaqueColor 0xff 0x7f 0x7f
    colorDirectSelected := opaqueColor 0x9c 0x9c 0x9c
    colorTrueSelected := opaqueColor 0x9f 0xff 0x9f
    colorFalseSelected := opaqueColor 0xff 0x9f 0x9f
    paddingBetweenEdges := 0.05
    paddingLine := 25.0
    lineWidth := 2.0 }

structure ViewStyle (α : Type) where
  vertex : VertexStyle α
  edge : EdgeStyle α
  backgroundColor : Ink
  errorColor : Ink
  /-- Gap between vertices of a rank. -/
  nodeSpacing : α
  /-- Gap between ranks. -/
  rankSpacing : α

def ViewStyle.standard {α : Type} [Scalar α] : ViewStyle α :=
  { vertex := .standard
    edge := .standard
    backgroundColor := opaqueColor 0x1e 0x1e 0x1e
    errorColor := opaqueColor 0xff 0x5f 0x5f
    nodeSpacing := 40.0
    rankSpacing := 60.0 }

end DebugDesk
