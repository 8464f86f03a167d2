import Shiftgate.Library.Threads

/-! Calls that rely on what the others leave alone. A `Contract` says what the others may do while a
call waits, and what the call itself does. Where these fit, every call of a pool stays followed
(`Kept.step`). -/

namespace Shiftgate.Library

variable {S Op A X C : Type} {R : C → Type}

/-- `rely op c` is what the others may do while a call waits for `c`, or to return. `does op c t` is
what it may do with `c` when `t` is left of its program. -/
structure Contract (svc : Service S Op A X R) where
  Inv : S → Prop
  allowed : Op → C → X → Prop
  rely : Op → Option C → S → S → Prop
  does : Op → C → Thread R A → S → S → Prop
  rely_trans : ∀ {op c s t u}, rely op c s t → rely op c t u → rely op c s u
  restart_keeps : ∀ s, Inv s → Inv (svc.restart s)

namespace Contract

variable {svc : Service S Op A X R} (g : Contract svc)

/-- Whatever the others do, the program keeps the invariant, does no more than the contract says,
and ends with `Q`. -/
def Ensures (n : Nat) (op : Op) (Q : S → A → Prop) : Thread R A → S → Prop
  | .done a, s => ∀ t, g.rely op none s t → g.Inv t → Q t a
  | .ask c next, s =>
    ∀ s' x t r, g.rely op (some c) s s' → g.Inv s' → g.allowed op c x →
      svc.serve s' n c x = some (t, r) →
      g.Inv t ∧ g.does op c (next r) s' t ∧ Ensures n op Q (next r) t

structure Kept (post : Op → S → A → Prop) (p : Pool S Op A R) : Prop where
  inv : g.Inv p.shared
  running : ∀ n op t, p.op n = some op → p.thread n = some t →
    g.Ensures n op (post op) t p.shared

/-- Nobody else's program moves, and call `n` does with its command what the contract says. -/
structure Advanced (p : Pool S Op A R) (n : Nat) (q : Pool S Op A R) (op : Op) (c : C)
    (t : Thread R A) : Prop where
  op_eq : p.op n = some op
  asks : p.asks n = some c
  thread : q.thread n = some t
  others : ∀ k, k ≠ n → q.thread k = p.thread k
  ops : ∀ k, q.op k = p.op k
  inv : g.Inv q.shared
  does : g.does op c t p.shared q.shared

variable {g} {post : Op → S → A → Prop} {p q : Pool S Op A R} {n : Nat} {op : Op}

theorem Ensures.stable {Q : S → A → Prop} {t : Thread R A} {s s' : S} (h : g.Ensures n op Q t s)
    (hrely : g.rely op t.asks s s') : g.Ensures n op Q t s' := by
  cases t with
  | done a => exact fun u hu => h u (g.rely_trans hrely hu)
  | ask c next => exact fun u x v r hu => h u x v r (g.rely_trans hrely hu)

variable (hrefl : ∀ op c s, g.rely op c s s)

include hrefl

theorem Kept.advanced (h : g.Kept post p) {x : X}
    (hallowed : ∀ op c, p.op n = some op → p.asks n = some c → g.allowed op c x)
    (hstep : Pool.step svc p (.advance n x) = some q) :
    ∃ op c t, g.Advanced p n q op c t ∧ g.Ensures n op (post op) t q.shared := by
  cases Pool.step_moved hstep with
  | @advance _ _ c next s r hthread hserve =>
    have hlt := Pool.thread_lt_length hthread
    obtain ⟨op, hop⟩ := Pool.op_of_thread hthread
    have hasks : p.asks n = some c := by simp [Pool.asks, hthread, Thread.asks]
    obtain ⟨hinv, hdoes, hnext⟩ := h.running n op _ hop hthread p.shared x s r (hrefl _ _ _) h.inv
      (hallowed op c hop hasks) hserve
    refine ⟨op, c, next r, ⟨hop, hasks, Pool.thread_setThread hlt, ?_, ?_, hinv, hdoes⟩, hnext⟩
    · exact fun k hk => Pool.thread_setThread_ne hk
    · exact fun k => Pool.op_setThread n k _

theorem Kept.step (hprogram : ∀ n op s, g.Inv s → g.Ensures n op (post op) (svc.program op) s)
    (h : g.Kept post p) {move : Move Op X}
    (hallowed : ∀ n x, move = .advance n x →
      ∀ op c, p.op n = some op → p.asks n = some c → g.allowed op c x)
    (hfits : ∀ n op c t k op' u, g.Advanced p n q op c t → k ≠ n → p.op k = some op' →
      p.thread k = some u → g.rely op' u.asks p.shared q.shared)
    (hstep : Pool.step svc p move = some q) : g.Kept post q := by
  have hmoved := Pool.step_moved hstep
  cases hmoved with
  | call op =>
    refine ⟨h.inv, fun k op' t hop ht => ?_⟩
    by_cases hk : k = p.calls.length
    · subst hk
      rw [Pool.thread_append] at ht
      rw [Pool.op_append_length] at hop
      cases ht
      cases hop
      exact hprogram _ _ _ h.inv
    · rw [Pool.thread_append_ne _ hk] at ht
      obtain ⟨op'', hop''⟩ := Pool.op_of_thread ht
      rw [Pool.op_append _ hop''] at hop
      cases hop
      exact h.running k op' t hop'' ht
  | @advance n x c next s r hthread hserve =>
    obtain ⟨op, c', t, hadvanced, hnext⟩ := h.advanced hrefl (hallowed n x rfl) hstep
    refine ⟨hadvanced.inv, fun k op' u hop hu => ?_⟩
    rw [hadvanced.ops] at hop
    by_cases hk : k = n
    · subst hk
      rw [hadvanced.thread] at hu
      rw [hadvanced.op_eq] at hop
      cases hu
      cases hop
      exact hnext
    · rw [hadvanced.others k hk] at hu
      exact (h.running k op' u hop hu).stable (hfits n op c' t k op' u hadvanced hk hop hu)
  | @finish n a hthread =>
    have hlt := Pool.thread_lt_length hthread
    refine ⟨h.inv, fun k op' u hop hu => ?_⟩
    rw [Pool.op_setThread] at hop
    by_cases hk : k = n
    · rw [hk, Pool.thread_setThread hlt] at hu
      cases hu
    · rw [Pool.thread_setThread_ne hk] at hu
      exact h.running k op' u hop hu
  | crash =>
    refine ⟨g.restart_keeps _ h.inv, fun k op' u hop hu => ?_⟩
    rw [Pool.thread_crash] at hu
    cases hu

omit hrefl in
theorem Kept.initial {s : S} (hinv : g.Inv s) : g.Kept post (Pool.initial s) :=
  ⟨hinv, fun n op t _ ht => by simp [Pool.thread, Pool.initial] at ht⟩

theorem Kept.returns (h : g.Kept post p) {a : A} (hop : p.op n = some op)
    (hthread : p.thread n = some (.done a)) : post op p.shared a :=
  h.running n op _ hop hthread p.shared (hrefl _ _ _) h.inv

end Contract

end Shiftgate.Library
