import Mathlib.Tactic

/-! Programs that act on a state, can return an error with the state as they left it, and can be cut
off by a crash. What can go wrong is an argument, one `Fault` for each step. `wp` is the weakest
precondition over the three ways a program can end. -/

namespace Shiftgate.Library

/-- The ways a program can end: with a value, with an error, or in a crash. -/
inductive Outcome (σ ε α : Type) where
  | ok (value : α) (state : σ)
  | error (err : ε) (state : σ)
  | crash (state : σ)
  deriving DecidableEq

/-- A step happens, fails and leaves the state, or the machine stops before it. -/
inductive Fault where
  | none
  | fail
  | crash
  deriving DecidableEq, Repr, Inhabited

def Program (σ ε α : Type) : Type := σ → Outcome σ ε α

variable {σ ε α β : Type}

theorem bind_ok {x : Except ε α} {f : α → Except ε β} {b : β} :
    (x >>= f) = .ok b ↔ ∃ a, x = .ok a ∧ f a = .ok b := by
  cases x <;> simp [bind, Except.bind]

namespace Outcome

def state : Outcome σ ε α → σ
  | ok _ s => s
  | error _ s => s
  | crash s => s

def succeeded : Outcome σ ε α → Bool
  | ok _ _ => true
  | _ => false

@[simp] theorem state_ok (a : α) (s : σ) : (ok a s : Outcome σ ε α).state = s := rfl

@[simp] theorem state_error (e : ε) (s : σ) : (error e s : Outcome σ ε α).state = s := rfl

@[simp] theorem state_crash (s : σ) : (crash s : Outcome σ ε α).state = s := rfl

instance exists_ok.decidable {P : α → σ → Prop} [∀ a s, Decidable (P a s)] :
    ∀ o : Outcome σ ε α, Decidable (∃ a s, o = ok a s ∧ P a s)
  | ok a s => decidable_of_iff (P a s) (by simp)
  | error .. => isFalse (by simp)
  | crash _ => isFalse (by simp)

end Outcome

namespace Program

def pure (a : α) : Program σ ε α := fun s => .ok a s

def bind (p : Program σ ε α) (f : α → Program σ ε β) : Program σ ε β := fun s =>
  match p s with
  | .ok a s' => f a s'
  | .error e s' => .error e s'
  | .crash s' => .crash s'

instance : Monad (Program σ ε) where
  pure := Program.pure
  bind := Program.bind

def throw (e : ε) : Program σ ε α := fun s => .error e s

def get : Program σ ε σ := fun s => .ok s s

def modify (f : σ → σ) : Program σ ε Unit := fun s => .ok () (f s)

def attempt (p : Program σ ε α) : Program σ ε (Except ε α) := fun s =>
  match p s with
  | .ok a s' => .ok (.ok a) s'
  | .error e s' => .ok (.error e) s'
  | .crash s' => .crash s'

def liftExcept (r : Except ε α) : Program σ ε α :=
  match r with
  | .ok a => pure a
  | .error e => throw e

def onlyIf (c : Bool) (p : Program σ ε Unit) : Program σ ε Unit := if c then p else pure ()

/-- A step on the outside world: `f` happens, it fails with `e`, or a crash comes first. -/
def effect (fault : Fault) (e : ε) (f : σ → σ) : Program σ ε Unit := fun s =>
  match fault with
  | .none => .ok () (f s)
  | .fail => .error e s
  | .crash => .crash s

def point (fault : Fault) : Program σ ε Unit := fun s =>
  match fault with
  | .crash => .crash s
  | _ => .ok () s

def zoom {τ : Type} (part : σ → τ) (replace : τ → σ → σ) (p : Program τ ε α) : Program σ ε α :=
  fun s => match p (part s) with
    | .ok a t => .ok a (replace t s)
    | .error e t => .error e (replace t s)
    | .crash t => .crash (replace t s)

def mapError {ε' : Type} (f : ε → ε') (p : Program σ ε α) : Program σ ε' α := fun s =>
  match p s with
  | .ok a s' => .ok a s'
  | .error e s' => .error (f e) s'
  | .crash s' => .crash s'

variable {f : α → Program σ ε β} {r : Except ε α} {τ : Type} {fault : Fault} {e : ε}

theorem bind_eq_ok {p : Program σ ε α} {s t : σ} {b : β} :
    (p >>= f) s = .ok b t ↔ ∃ a u, p s = .ok a u ∧ f a u = .ok b t := by
  show Program.bind p f s = .ok b t ↔ _
  unfold Program.bind
  cases hp : p s with
  | ok a u => exact ⟨fun h => ⟨a, u, rfl, h⟩, fun ⟨_, _, h, h'⟩ => by cases h; exact h'⟩
  | error e u | crash u => exact ⟨nofun, fun ⟨_, _, h, _⟩ => nomatch h⟩

theorem liftExcept_eq_ok {s t : σ} {a : α} :
    (liftExcept r : Program σ ε α) s = .ok a t ↔ r = .ok a ∧ t = s := by
  cases r with
  | ok b =>
    refine ⟨fun h => ?_, fun ⟨h, h'⟩ => ?_⟩
    · cases h
      exact ⟨rfl, rfl⟩
    · cases h
      rw [h']
      rfl
  | error e => exact ⟨nofun, fun ⟨h, _⟩ => nomatch h⟩

theorem lift_bind_eq_ok {s t : σ} {b : β} :
    (liftExcept r >>= f) s = .ok b t ↔ ∃ a, r = .ok a ∧ f a s = .ok b t := by
  simp [bind_eq_ok, liftExcept_eq_ok]

@[simp] theorem get_bind_apply (f : σ → Program σ ε α) (s : σ) : (get >>= f) s = f s s := rfl

end Program

/-- What is wanted of a program's end, for each way it can end. -/
structure Post (σ ε α : Type) where
  ok : α → σ → Prop
  error : ε → σ → Prop
  crash : σ → Prop

/-- The same is wanted of the state however the program ends. -/
def Post.always (P : σ → Prop) : Post σ ε α where
  ok := fun _ => P
  error := fun _ => P
  crash := P

@[simp] theorem Post.always_ok (P : σ → Prop) (a : α) :
    (Post.always P : Post σ ε α).ok a = P := rfl

@[simp] theorem Post.always_error (P : σ → Prop) (e : ε) :
    (Post.always P : Post σ ε α).error e = P := rfl

@[simp] theorem Post.always_crash (P : σ → Prop) : (Post.always P : Post σ ε α).crash = P := rfl

def Outcome.Meets (o : Outcome σ ε α) (post : Post σ ε α) : Prop :=
  match o with
  | .ok a s => post.ok a s
  | .error e s => post.error e s
  | .crash s => post.crash s

/-- The states from which `p` ends as `post` wants. -/
def wp (p : Program σ ε α) (post : Post σ ε α) (s : σ) : Prop := (p s).Meets post

section Rules

variable {post post' : Post σ ε α} {s : σ}

@[simp] theorem wp_pure (a : α) : wp (pure a : Program σ ε α) post s ↔ post.ok a s := Iff.rfl

@[simp] theorem wp_bind (p : Program σ ε β) (f : β → Program σ ε α) :
    wp (p >>= f) post s ↔
      wp p { ok := fun b => wp (f b) post, error := post.error, crash := post.crash } s := by
  show (Program.bind p f s).Meets post ↔ (p s).Meets _
  unfold Program.bind
  cases p s <;> exact Iff.rfl

@[simp] theorem wp_throw (e : ε) : wp (Program.throw e : Program σ ε α) post s ↔ post.error e s :=
  Iff.rfl

@[simp] theorem wp_get {post : Post σ ε σ} : wp Program.get post s ↔ post.ok s s := Iff.rfl

@[simp] theorem wp_modify {post : Post σ ε Unit} (f : σ → σ) :
    wp (Program.modify f) post s ↔ post.ok () (f s) := Iff.rfl

@[simp] theorem wp_attempt {post : Post σ ε (Except ε α)} (p : Program σ ε α) :
    wp (Program.attempt p) post s ↔
      wp p { ok := fun a => post.ok (.ok a), error := fun e => post.ok (.error e),
             crash := post.crash } s := by
  show (Program.attempt p s).Meets post ↔ (p s).Meets _
  unfold Program.attempt
  cases p s <;> exact Iff.rfl

theorem wp_liftExcept (hok : ∀ a, r = .ok a → post.ok a s) (herror : ∀ e, post.error e s) :
    wp (Program.liftExcept r) post s := by
  cases r with
  | ok a => exact hok a rfl
  | error e => exact herror e

@[simp] theorem wp_liftExcept_ok (a : α) :
    wp (Program.liftExcept (.ok a) : Program σ ε α) post s ↔ post.ok a s := Iff.rfl

@[simp] theorem wp_liftExcept_error (e : ε) :
    wp (Program.liftExcept (.error e) : Program σ ε α) post s ↔ post.error e s := Iff.rfl

@[simp] theorem wp_zoom (part : σ → τ) (replace : τ → σ → σ) (p : Program τ ε α) :
    wp (Program.zoom part replace p) post s ↔
      wp p { ok := fun a t => post.ok a (replace t s)
             error := fun e t => post.error e (replace t s)
             crash := fun t => post.crash (replace t s) } (part s) := by
  show (Program.zoom part replace p s).Meets post ↔ (p (part s)).Meets _
  unfold Program.zoom
  cases p (part s) <;> exact Iff.rfl

@[simp] theorem wp_mapError {ε' : Type} {post : Post σ ε' α} (f : ε → ε') (p : Program σ ε α) :
    wp (Program.mapError f p) post s ↔
      wp p { ok := post.ok, error := fun e => post.error (f e), crash := post.crash } s := by
  show (Program.mapError f p s).Meets post ↔ (p s).Meets _
  unfold Program.mapError
  cases p s <;> exact Iff.rfl

theorem wp_effect {post : Post σ ε Unit} (fault : Fault) (e : ε) (f : σ → σ) :
    wp (Program.effect fault e f) post s ↔
      (fault = .none → post.ok () (f s)) ∧ (fault = .fail → post.error e s) ∧
        (fault = .crash → post.crash s) := by
  cases fault <;> simp [wp, Program.effect, Outcome.Meets]

theorem wp_effect_id {post : Post σ ε Unit} (hnone : fault = .none → post.ok () s)
    (hstop : fault ≠ .none → post.error e s ∧ post.crash s) :
    wp (Program.effect fault e id) post s := by
  rw [wp_effect]
  exact ⟨hnone, fun h => (hstop (by simp [h])).1, fun h => (hstop (by simp [h])).2⟩

theorem wp_skip {q : Unit → Program σ ε α} (hnext : wp (q ()) post s) (herror : post.error e s)
    (hcrash : post.crash s) : wp (Program.effect fault e id >>= q) post s :=
  (wp_bind _ _).mpr (wp_effect_id (fun _ => hnext) fun _ => ⟨herror, hcrash⟩)

theorem wp_point {post : Post σ ε Unit} (fault : Fault) :
    wp (Program.point fault) post s ↔
      (fault ≠ .crash → post.ok () s) ∧ (fault = .crash → post.crash s) := by
  cases fault <;> simp [wp, Program.point, Outcome.Meets]

theorem wp_always {p : Program σ ε α} {P : σ → Prop} : wp p (.always P) s ↔ P (p s).state := by
  unfold wp
  cases p s <;> exact Iff.rfl

/-- The rule of consequence. -/
theorem wp_mono {p : Program σ ε α} (h : wp p post s) (hok : ∀ a t, post.ok a t → post'.ok a t)
    (herror : ∀ e t, post.error e t → post'.error e t)
    (hcrash : ∀ t, post.crash t → post'.crash t) : wp p post' s := by
  unfold wp Outcome.Meets at *
  cases hp : p s <;> simp only [hp] at h ⊢
  · exact hok _ _ h
  · exact herror _ _ h
  · exact hcrash _ h

/-- Sequencing through a condition on the state between the two programs. -/
theorem wp_seq {p : Program σ ε β} {q : β → Program σ ε α} (I : σ → Prop)
    (hp : wp p { ok := fun _ => I, error := post.error, crash := post.crash } s)
    (hq : ∀ b t, I t → wp (q b) post t) : wp (p >>= q) post s :=
  (wp_bind p q).mpr (wp_mono hp hq (fun _ _ h => h) fun _ h => h)

theorem wp_ite {c : Prop} [Decidable c] (p q : Program σ ε α) :
    wp (if c then p else q) post s ↔ (c → wp p post s) ∧ (¬c → wp q post s) := by
  split <;> simp_all

theorem wp_onlyIf {post : Post σ ε Unit} {c : Bool} {p : Program σ ε Unit} :
    wp (Program.onlyIf c p) post s ↔ (c = true → wp p post s) ∧ (c = false → post.ok () s) := by
  cases c
  · simp only [Bool.false_eq_true, false_implies, true_implies, true_and]
    exact Iff.rfl
  · simp [Program.onlyIf]

theorem wp.outcome {p : Program σ ε α} (h : wp p post s) : (p s).Meets post := h

end Rules

def Returns (p : Program σ ε α) (Q : α → Prop) : Prop := ∀ s a t, p s = .ok a t → Q a

namespace Returns

variable {p : Program σ ε α} {Q : α → Prop}

theorem any (p : Program σ ε α) : Returns p fun _ => True := fun _ _ _ _ => trivial

theorem pure {a : α} (h : Q a) : Returns (Pure.pure a : Program σ ε α) Q := by
  intro s b t hb
  cases hb
  exact h

theorem throw (e : ε) : Returns (Program.throw e : Program σ ε α) Q := by
  intro s a t h
  cases h

theorem bind {q : α → Program σ ε β} {R : β → Prop} (hp : Returns p Q)
    (hq : ∀ a, Q a → Returns (q a) R) : Returns (p >>= q) R := by
  intro s b t h
  change Program.bind p q s = .ok b t at h
  unfold Program.bind at h
  cases hs : p s with
  | ok a u =>
    rw [hs] at h
    exact hq a (hp s a u hs) u b t h
  | error e u | crash u =>
    rw [hs] at h
    cases h

theorem zoom {p : Program τ ε α} (part : σ → τ) (replace : τ → σ → σ) (h : Returns p Q) :
    Returns (Program.zoom part replace p) Q := by
  intro s a t ha
  unfold Program.zoom at ha
  cases hs : p (part s) with
  | ok b u =>
    rw [hs] at ha
    cases ha
    exact h _ _ _ hs
  | error e u | crash u =>
    rw [hs] at ha
    cases ha

end Returns

end Shiftgate.Library
