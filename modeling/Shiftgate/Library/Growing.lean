import Shiftgate.Library.Threads

/-! Calls on shared state that only grows: what a call has seen stays true, so the calls can be
taken one by one. `Growth.answered` says what every answer of a run means. -/

namespace Shiftgate.Library

open List Pool

variable {S Op A X C : Type} {R : C → Type}

structure Growth (svc : Service S Op A X R) where
  le : S → S → Prop
  refl : ∀ s, le s s
  trans : ∀ {s t u}, le s t → le t u → le s u
  Inv : S → Prop
  calls : Op → Prop
  allowed : S → Op → C → X → Prop
  restart_grows : ∀ s, le s (svc.restart s)
  restart_keeps : ∀ s, Inv s → Inv (svc.restart s)

namespace Growth

variable {svc : Service S Op A X R} (g : Growth svc)

/-- The calls begin as `calls` says and their commands come as `allowed` says. -/
def Allowed (p : Pool S Op A R) : Move Op X → Prop
  | .call op => g.calls op
  | .advance n x => ∀ op ∈ p.op n, ∀ c ∈ p.asks n, g.allowed p.shared op c x
  | .finish _ => True
  | .crash => True

/-- Every command, in any state that has grown from `s`, keeps the invariant and lets the state
grow; where the program ends, `Q` holds from then on. The flag says that a command failed. -/
def Ensures {α : Type} (n : Nat) (op : Op) (Q : Bool → S → α → Prop) :
    Thread R α → Bool → S → Prop
  | .done a, failed, s => ∀ t, g.le s t → Q failed t a
  | .ask c next, failed, s =>
    ∀ s' x t r, g.le s s' → g.Inv s' → g.allowed s' op c x → svc.serve s' n c x = some (t, r) →
      g.le s' t ∧ g.Inv t ∧ Ensures n op Q (next r) (failed || svc.fails x) t

variable {g}

variable {n : Nat}

theorem Ensures.grow {α : Type} {op : Op} {Q : Bool → S → α → Prop} {t : Thread R α} {failed : Bool}
    {s s' : S} (h : g.Ensures n op Q t failed s) (hle : g.le s s') :
    g.Ensures n op Q t failed s' := by
  cases t with
  | done a => exact fun u hu => h u (g.trans hle hu)
  | ask c next => exact fun u x v r hu => h u x v r (g.trans hle hu)

theorem Ensures.bind {α β : Type} {op : Op} {Q : Bool → S → β → Prop} {t : Thread R α}
    {f : α → Thread R β} {failed : Bool} {s : S}
    (h : g.Ensures n op (fun failed' s' a => g.Ensures n op Q (f a) failed' s') t failed s) :
    g.Ensures n op Q (t >>= f) failed s := by
  induction t generalizing failed s with
  | done a => exact h s (g.refl s)
  | ask c next ih =>
    intro s' x u r hle hinv hallowed hserve
    obtain ⟨hgrown, hkept, hnext⟩ := h s' x u r hle hinv hallowed hserve
    exact ⟨hgrown, hkept, ih r hnext⟩

theorem Ensures.map {α β : Type} {op : Op} {Q : Bool → S → β → Prop} {t : Thread R α} {f : α → β}
    {failed : Bool} {s : S}
    (h : g.Ensures n op (fun failed' s' a => Q failed' s' (f a)) t failed s) :
    g.Ensures n op Q (t >>= fun a => pure (f a)) failed s := by
  induction t generalizing failed s with
  | done a => exact h
  | ask c next ih =>
    intro s' x u r hle hinv hallowed hserve
    obtain ⟨hgrown, hkept, hnext⟩ := h s' x u r hle hinv hallowed hserve
    exact ⟨hgrown, hkept, ih r hnext⟩

variable (g)

/-- The state that call `n` began in, after `base` if it is not among the `first` ones, and whether
a command of it failed. -/
structure Began (first : Nat) (base : S) (p : Pool S Op A R) (n : Nat) (op : Op) (start : S)
    (failed : Bool) : Prop where
  op_eq : p.op n = some op
  after : first ≤ n → g.le base start
  fault : failed = true → .fault n ∈ p.history

/-- Every call under way is followed, and every answer means what `post` says. -/
structure Kept (post : Op → S → Bool → S → A → Prop) (first : Nat) (base : S)
    (p : Pool S Op A R) : Prop where
  inv : g.Inv p.shared
  grown : g.le base p.shared
  running : ∀ n t, p.thread n = some t → ∃ op start failed,
    g.Began first base p n op start failed ∧
      g.Ensures n op (post op start) t failed p.shared
  answered : ∀ n a, .answer n a ∈ p.history → ∃ op start failed,
    g.Began first base p n op start failed ∧
      ∀ t, g.le p.shared t → post op start failed t a

variable {g} {post : Op → S → Bool → S → A → Prop} {first : Nat} {base : S} {p q : Pool S Op A R}

theorem Began.mono {op : Op} {start : S} {failed : Bool}
    (h : g.Began first base p n op start failed) (hop : p.op n = some op → q.op n = some op)
    (hhistory : p.history ⊆ q.history) : g.Began first base q n op start failed :=
  ⟨hop h.op_eq, h.after, fun hf => hhistory (h.fault hf)⟩

theorem Kept.update (h : g.Kept post first base p) (hle : g.le p.shared q.shared)
    (hinv : g.Inv q.shared) (hops : ∀ k op, p.op k = some op → q.op k = some op)
    (hhistory : p.history ⊆ q.history)
    (hanswers : ∀ k a, .answer k a ∈ q.history → .answer k a ∉ p.history →
      ∃ op start failed, g.Began first base q k op start failed ∧
        ∀ t, g.le q.shared t → post op start failed t a)
    (hothers : ∀ k t, k ≠ n → q.thread k = some t → p.thread k = some t)
    (hself : ∀ t, q.thread n = some t → ∃ op start failed, g.Began first base q n op start failed ∧
        g.Ensures n op (post op start) t failed q.shared) : g.Kept post first base q where
  inv := hinv
  grown := g.trans h.grown hle
  running k t ht := by
    by_cases hk : k = n
    · subst hk
      exact hself t ht
    · obtain ⟨op, start, failed, hbegan, hensures⟩ := h.running k t (hothers k t hk ht)
      exact ⟨op, start, failed, hbegan.mono (hops k op) hhistory, hensures.grow hle⟩
  answered k a ha := by
    by_cases hold : .answer k a ∈ p.history
    · obtain ⟨op, start, failed, hbegan, hpost⟩ := h.answered k a hold
      exact ⟨op, start, failed, hbegan.mono (hops k op) hhistory,
        fun t ht => hpost t (g.trans hle ht)⟩
    · exact hanswers k a ha hold

theorem Kept.step (hprogram : ∀ n op s, g.calls op → g.Inv s →
      g.Ensures n op (post op s) (svc.program op) false s)
    (h : g.Kept post first base p) {move : Move Op X} (hallowed : g.Allowed p move)
    (hstep : step svc p move = some q) : g.Kept post first base q := by
  cases step_moved hstep with
  | call op =>
    refine h.update (g.refl _) h.inv (fun k op' hop => op_append _ hop)
      (subset_append_left ..) ?_ (n := p.calls.length) ?_ ?_
    · intro k a ha hnew
      simp [hnew] at ha
    · intro k t hk ht
      rwa [thread_append_ne _ hk] at ht
    · intro t ht
      rw [thread_append] at ht
      cases ht
      refine ⟨op, p.shared, false, ⟨op_append_length _, fun _ => h.grown, nofun⟩, ?_⟩
      exact hprogram _ op _ hallowed h.inv
  | @advance n x c next s r hthread hserve =>
    have hlt := thread_lt_length hthread
    have hasks : p.asks n = some c := by simp [asks, hthread, Thread.asks]
    obtain ⟨op, start, failed, hbegan, hensures⟩ := h.running n _ hthread
    obtain ⟨hle, hinv, hnext⟩ := hensures p.shared x s r (g.refl _) h.inv
      (hallowed op hbegan.op_eq c hasks) hserve
    have hhistory : p.history ⊆
        if svc.fails x then p.history ++ [Event.fault n] else p.history := by
      split
      · exact subset_append_left ..
      · exact List.Subset.refl _
    refine h.update hle hinv (fun k op' hop => ?_) hhistory ?_ (n := n) ?_ ?_
    · rwa [op_setThread]
    · intro k a ha hnew
      split at ha <;> simp [hnew] at ha
    · intro k t hk ht
      rwa [thread_setThread_ne hk] at ht
    · intro t ht
      rw [thread_setThread hlt] at ht
      cases ht
      refine ⟨op, start, failed || svc.fails x, ⟨?_, hbegan.after, fun hf => ?_⟩, hnext⟩
      · rw [op_setThread]
        exact hbegan.op_eq
      · rcases Bool.or_eq_true_iff.mp hf with hfailed | hfails
        · exact hhistory (hbegan.fault hfailed)
        · simp [hfails]
  | @finish n a hthread =>
    have hlt := thread_lt_length hthread
    obtain ⟨op, start, failed, hbegan, hensures⟩ := h.running n _ hthread
    have hops : ∀ k op', p.op k = some op' →
        (⟨p.shared, p.setThread n none, p.history ++ [.answer n a]⟩ : Pool S Op A R).op k =
          some op' := by
      intro k op' hop
      rwa [op_setThread]
    refine h.update (g.refl _) h.inv hops (subset_append_left ..) ?_ (n := n) ?_ ?_
    · intro k b hb hnew
      rcases mem_append.mp hb with hold | hlast
      · exact absurd hold hnew
      · cases mem_singleton.mp hlast
        exact ⟨op, start, failed, hbegan.mono (hops n op) (subset_append_left ..), hensures⟩
    · intro k t hk ht
      rwa [thread_setThread_ne hk] at ht
    · intro t ht
      rw [thread_setThread hlt] at ht
      cases ht
  | crash =>
    refine h.update (g.restart_grows _) (g.restart_keeps _ h.inv) (fun k op hop => ?_)
      (subset_append_left ..) ?_ (n := 0) ?_ ?_
    · exact (op_crash _ _).mpr hop
    · intro k a ha hnew
      simp [hnew] at ha
    · intro k t _ ht
      rw [thread_crash] at ht
      cases ht
    · intro t ht
      rw [thread_crash] at ht
      cases ht

theorem Kept.initial {s : S} (hinv : g.Inv s) : g.Kept post 0 s (Pool.initial s) where
  inv := hinv
  grown := g.refl s
  running n t ht := by simp [Pool.thread, Pool.initial] at ht
  answered n a ha := by simp [Pool.initial] at ha

/-- From here on, a new call is one that begins after this state. -/
theorem Kept.rebase (h : g.Kept post first base p) : g.Kept post p.calls.length p.shared p where
  inv := h.inv
  grown := g.refl _
  running n t ht := by
    obtain ⟨op, start, failed, hbegan, hensures⟩ := h.running n t ht
    have hlt := thread_lt_length ht
    exact ⟨op, start, failed, ⟨hbegan.op_eq, fun hle => by omega, hbegan.fault⟩, hensures⟩
  answered n a ha := by
    obtain ⟨op, start, failed, hbegan, hpost⟩ := h.answered n a ha
    obtain ⟨call, hcall, -⟩ := Option.map_eq_some_iff.mp hbegan.op_eq
    have hlt := (List.getElem?_eq_some_iff.mp hcall).1
    exact ⟨op, start, failed, ⟨hbegan.op_eq, fun hle => by omega, hbegan.fault⟩, hpost⟩

/-- The rule: along a run of allowed moves the calls stay followed. -/
theorem Kept.run (hprogram : ∀ n op s, g.calls op → g.Inv s →
      g.Ensures n op (post op s) (svc.program op) false s)
    {moves : List (Move Op X)} (h : g.Kept post first base p)
    (hmeets : Meets (Pool.step svc) g.Allowed p moves)
    (hrun : exec (Pool.step svc) p moves = some q) : g.Kept post first base q :=
  exec_invariant (g.Kept post first base)
    (fun _ _ _ hs hallowed hstep => hs.step hprogram hallowed hstep) h hmeets hrun

end Growth

end Shiftgate.Library
