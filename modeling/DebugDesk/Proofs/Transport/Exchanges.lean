import DebugDesk.Transport.Basic

/-!
# Exchanges

The work of a request, step by step: what is made of a reply, and what is done with that.
-/
namespace DebugDesk

namespace HostLink

variable {σ κ β : Type}

def reading (r : Request κ β) (reply : Reply) : Except Fault (Option Json) :=
  if reply.isSuccess = false then .error (.hostStatus reply.status.display reply.reason.display)
  else if r.silent then .ok none
  else reply.content.elim (.error .unreadableBody) fun content => .ok (some content)

theorem exchange_eq (L : HostLink σ κ β) (r : Request κ β) :
    L.exchange r = (do
      let t ← L.transport.read
      let reply ← L.post (t.posting r)
      Effect.ofExcept (reading r reply)) := by
  refine bind_congr fun t => bind_congr fun reply => ?_
  rw [reading]
  cases reply.isSuccess <;> cases r.silent <;> cases reply.content <;> rfl

theorem reading_eq_some {r : Request κ β} {reply : Reply} {content : Json}
    (h : reading r reply = .ok (some content)) :
    reply.isSuccess = true ∧ reply.content = some content := by
  unfold reading at h
  cases hs : reply.isSuccess <;> cases hr : r.silent <;> cases hc : reply.content <;>
    simp [hs, hr, hc] at h
  exact ⟨rfl, congrArg some h⟩

/-- What is done with what was read, or with the failure to read it. -/
def settleReading (L : HostLink σ κ β) (task : Nat) (r : Request κ β) :
    Except Fault (Option Json) → Effect σ Unit
  | .error fault =>
    if fault.isLogged then
      L.write LogBook.errorKind (.str "error") (.str s!"{r.method.display}: {fault.message}")
    else throw fault
  | .ok none => return ()
  | .ok (some content) => do
    L.write LogBook.responseKind (HostTransport.statusOf content) content
    L.transport.update (·.deposit task r content)

theorem carryOut_eq (L : HostLink σ κ β) (task : Nat) (r : Request κ β) :
    L.carryOut task r = (do
      let t ← L.transport.read
      if t.tasks.isCancelled task then pure ()
      else do
        let answer ← (L.exchange r).attempt
        L.settleReading task r answer) := by
  refine bind_congr fun t => ?_
  cases t.tasks.isCancelled task
  · refine bind_congr fun answer => ?_
    rcases answer with fault | _ | content <;> rfl
  · rfl

end HostLink

/-- An answer is queued, unless its request is cancelled or wants none. -/
theorem HostTransport.deposit_cases {κ β : Type} (t : HostTransport κ β) (i : Nat)
    (r : Request κ β) (content : Json) : t.deposit i r content = t ∨
      ∃ c, r.callback = some c ∧ t.deposit i r content = t.enqueue ⟨r.owner, c, content⟩ := by
  unfold deposit answer
  split
  · exact .inl rfl
  · cases r.callback with
    | none => exact .inl rfl
    | some c => exact .inr ⟨c, rfl, rfl⟩

end DebugDesk
