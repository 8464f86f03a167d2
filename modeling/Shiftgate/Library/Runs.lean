import Mathlib.Tactic

/-! Runs of a system given by a step function: `step s a` is the state after action `a`, or `none`
when `a` cannot happen in `s`. `Meets` says that every action of a run is taken in a state that
satisfies a condition, and the invariant rules say what such a run preserves. -/

namespace Shiftgate.Library

variable {S A : Type}

/-- The state after the actions, in order; `none` when one of them cannot happen. -/
def exec (step : S → A → Option S) : S → List A → Option S
  | s, [] => some s
  | s, a :: rest => (step s a).bind fun t => exec step t rest

/-- Every action of the run is taken in a state that satisfies `cond`. -/
def Meets (step : S → A → Option S) (cond : S → A → Prop) : S → List A → Prop
  | _, [] => True
  | s, a :: rest => cond s a ∧ ∀ t, step s a = some t → Meets step cond t rest

def Reachable (step : S → A → Option S) (init s : S) : Prop := ∃ as, exec step init as = some s

variable {step : S → A → Option S} {cond : S → A → Prop}

@[simp] theorem exec_nil (s : S) : exec step s [] = some s := rfl

variable {s : S} {as : List A} {cond' : S → A → Prop}

theorem exec_cons {t : S} {a : A} {rest : List A} :
    exec step s (a :: rest) = some t ↔ ∃ m, step s a = some m ∧ exec step m rest = some t := by
  simp [exec, Option.bind_eq_some_iff]

theorem exec_append {t : S} {bs : List A} :
    exec step s (as ++ bs) = some t ↔ ∃ m, exec step s as = some m ∧ exec step m bs = some t := by
  induction as generalizing s with
  | nil => simp
  | cons a rest ih =>
    rw [List.cons_append, exec_cons]
    constructor
    · rintro ⟨m, hm, h⟩
      obtain ⟨n, hn, h⟩ := ih.mp h
      exact ⟨n, exec_cons.mpr ⟨m, hm, hn⟩, h⟩
    · rintro ⟨n, hn, h⟩
      obtain ⟨m, hm, hn⟩ := exec_cons.mp hn
      exact ⟨m, hm, ih.mpr ⟨n, hn, h⟩⟩

/-! A result can be looked at by computing it. -/

instance decidableExistsSome {P : S → Prop} [DecidablePred P] :
    ∀ o : Option S, Decidable (∃ t, o = some t ∧ P t)
  | none => isFalse (by simp)
  | some t => decidable_of_iff (P t) (by simp)

instance decidableForallSome {P : S → Prop} [DecidablePred P] :
    ∀ o : Option S, Decidable (∀ t, o = some t → P t)
  | none => isTrue nofun
  | some t => decidable_of_iff (P t) (by simp)

instance decidableExistsOk {ε : Type} {P : S → Prop} [DecidablePred P] :
    ∀ r : Except ε S, Decidable (∃ a, r = .ok a ∧ P a)
  | .error e => isFalse (by simp)
  | .ok a => decidable_of_iff (P a) (by simp)

instance decidableExistsOkPair {ε T : Type} {P : S → T → Prop} [∀ a b, Decidable (P a b)] :
    ∀ r : Except ε (S × T), Decidable (∃ a b, r = .ok (a, b) ∧ P a b)
  | .error e => isFalse (by simp)
  | .ok (a, b) => decidable_of_iff (P a b) (by simp)

/-- What a result shows when it is computed, with what follows from that. -/
theorem exists_some_and {o : Option S} {P Q : S → Prop} (h : ∃ t, o = some t ∧ P t)
    (himp : ∀ t, o = some t → P t → Q t) : ∃ t, o = some t ∧ P t ∧ Q t := by
  obtain ⟨t, ht, hp⟩ := h
  exact ⟨t, ht, hp, himp t ht hp⟩

instance Meets.decidable [∀ s a, Decidable (cond s a)] :
    ∀ (s : S) (as : List A), Decidable (Meets step cond s as)
  | _, [] => isTrue trivial
  | s, a :: rest =>
    match h : step s a with
    | none => decidable_of_iff (cond s a) (by simp [Meets, h])
    | some t =>
      have := Meets.decidable t rest
      decidable_of_iff (cond s a ∧ Meets step cond t rest) (by simp [Meets, h])

/-- A condition on steps that keeps `Inv` keeps it along every run that meets it. -/
theorem exec_invariant (Inv : S → Prop)
    (keeps : ∀ s a t, Inv s → cond s a → step s a = some t → Inv t) {t : S} (hs : Inv s)
    (hm : Meets step cond s as) (hr : exec step s as = some t) : Inv t := by
  induction as generalizing s with
  | nil =>
    cases hr
    exact hs
  | cons a rest ih =>
    obtain ⟨m, hstep, hrest⟩ := exec_cons.mp hr
    exact ih (keeps s a m hs hm.1 hstep) (hm.2 m hstep) hrest

theorem Meets.of_invariant {P : S → A → Prop} (Inv : S → Prop)
    (keeps : ∀ s a t, Inv s → cond s a → step s a = some t → Inv t)
    (gives : ∀ s a, Inv s → cond s a → P s a) (hs : Inv s) (hm : Meets step cond s as) :
    Meets step P s as := by
  induction as generalizing s with
  | nil => trivial
  | cons a rest ih =>
    exact ⟨gives s a hs hm.1, fun t ht => ih (keeps s a t hs hm.1 ht) (hm.2 t ht)⟩

theorem Meets.append {m : S} {bs : List A} (h : Meets step cond s (as ++ bs))
    (hr : exec step s as = some m) : Meets step cond s as ∧ Meets step cond m bs := by
  induction as generalizing s with
  | nil =>
    cases hr
    exact ⟨trivial, h⟩
  | cons a rest ih =>
    obtain ⟨n, hstep, hrest⟩ := exec_cons.mp hr
    obtain ⟨hleft, hright⟩ := ih (h.2 n hstep) hrest
    refine ⟨⟨h.1, fun t ht => ?_⟩, hright⟩
    cases hstep.symm.trans ht
    exact hleft

theorem Meets.of_forall {P : A → Prop} (h : ∀ a ∈ as, P a) (s : S) :
    Meets step (fun _ a => P a) s as := by
  induction as generalizing s with
  | nil => trivial
  | cons a rest ih =>
    exact ⟨h a (by simp), fun t _ => ih (fun b hb => h b (by simp [hb])) t⟩

theorem Meets.and (h : Meets step cond s as) (h' : Meets step cond' s as) :
    Meets step (fun s a => cond s a ∧ cond' s a) s as := by
  induction as generalizing s with
  | nil => trivial
  | cons a rest ih => exact ⟨⟨h.1, h'.1⟩, fun t ht => ih (h.2 t ht) (h'.2 t ht)⟩

theorem Meets.imp (h : Meets step cond s as) (himp : ∀ s a, cond s a → cond' s a) :
    Meets step cond' s as := by
  induction as generalizing s with
  | nil => trivial
  | cons a rest ih => exact ⟨himp s a h.1, fun t ht => ih (h.2 t ht)⟩

/-- The invariant rule for a system whose every step keeps `Inv`. -/
theorem Reachable.invariant (Inv : S → Prop) (keeps : ∀ s a t, Inv s → step s a = some t → Inv t)
    {init : S} (hinit : Inv init) (h : Reachable step init s) : Inv s := by
  obtain ⟨as, has⟩ := h
  induction as generalizing init with
  | nil =>
    cases has
    exact hinit
  | cons a rest ih =>
    obtain ⟨m, hstep, hrest⟩ := exec_cons.mp has
    exact ih (keeps init a m hinit hstep) hrest

end Shiftgate.Library
