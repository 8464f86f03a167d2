import Mathlib.Tactic

/-! The metadata of audit rows in an erasure (`database/erasure.go`). A document is decoded, loses
the members that can name a person, and is encoded again; `encoding/json` decodes every number to a
`float64`, and gives up on one out of range and on deep nesting. -/

namespace Shiftgate.Accounts

/-- A JSON value without repeated keys. Members have no order. -/
inductive Json where
  | null
  | bool (b : Bool)
  | string (s : String)
  | number (q : ℚ)
  | array (n : Nat) (elements : Fin n → Json)
  | object (keys : Finset String) (values : {key // key ∈ keys} → Json)

namespace Json

def depth : Json → Nat
  | .array _ elements => 1 + Finset.univ.sup fun i => (elements i).depth
  | .object keys values => 1 + keys.attach.sup fun key => (values key).depth
  | _ => 0

def empty : Json := .object ∅ fun key => absurd key.2 (Finset.notMem_empty _)

def allNumbers (p : ℚ → Bool) : Json → Bool
  | .number q => p q
  | .array _ elements => decide (∀ i, (elements i).allNumbers p = true)
  | .object _ values => decide (∀ key, (values key).allNumbers p = true)
  | _ => true

def mapNumbers (f : ℚ → ℚ) : Json → Json
  | .number q => .number (f q)
  | .array n elements => .array n fun i => (elements i).mapNumbers f
  | .object keys values => .object keys fun key => (values key).mapNumbers f
  | j => j

def NoKey (p : String → Prop) : Json → Prop
  | .array _ elements => ∀ i, (elements i).NoKey p
  | .object keys values => (∀ key ∈ keys, ¬ p key) ∧ ∀ key, (values key).NoKey p
  | _ => True

def without (p : String → Prop) [DecidablePred p] : Json → Json
  | .array n elements => .array n fun i => (elements i).without p
  | .object keys values => .object (keys.filter (¬ p ·)) fun key =>
      (values ⟨key, (Finset.mem_filter.mp key.2).1⟩).without p
  | j => j

end Json

def scrubMetadataKeys : List String :=
  ["email", "remote_addr", "user_agent", "external_id", "sso_subject", "github_login", "github_id",
    "ip", "ip_address", "x_forwarded_for"]

def scrubListed (lower : String → String) (key : String) : Prop := lower key ∈ scrubMetadataKeys

instance (lower : String → String) : DecidablePred (scrubListed lower) := fun key =>
  inferInstanceAs (Decidable (lower key ∈ scrubMetadataKeys))

def scrubMetadataValue (lower : String → String) : Json → Json
  | .object keys values => .object (keys.filter (lower · ∉ scrubMetadataKeys)) fun key =>
      scrubMetadataValue lower (values ⟨key, (Finset.mem_filter.mp key.2).1⟩)
  | .array n elements => .array n fun i => scrubMetadataValue lower (elements i)
  | value => value

/-- `float64 q` is the number that `json.Marshal` writes for what `json.Unmarshal` makes of `q`, or
`none` if `q` is out of range. -/
def Decodes (float64 : ℚ → Option ℚ) (raw : Json) : Prop :=
  raw.depth ≤ 10000 ∧ raw.allNumbers (fun q => (float64 q).isSome) = true

instance (float64 : ℚ → Option ℚ) (raw : Json) : Decidable (Decodes float64 raw) := instDecidableAnd

def unmarshal (float64 : ℚ → Option ℚ) (raw : Json) : Option Json :=
  if Decodes float64 raw then some (raw.mapNumbers fun q => (float64 q).getD q) else none

def scrubMetadataPII (float64 : ℚ → Option ℚ) (lower : String → String) (raw : Json) : Json :=
  match unmarshal float64 raw with
  | none => .empty
  | some decoded => scrubMetadataValue lower decoded

variable {lower : String → String} {p : String → Prop} [DecidablePred p] {f : ℚ → ℚ}

theorem Json.noKey_without (p : String → Prop) [DecidablePred p] (j : Json) :
    (j.without p).NoKey p := by
  induction j with
  | null | bool _ | string _ | number _ => trivial
  | array n elements ih => exact ih
  | object keys values ih => exact ⟨fun key hkey => (Finset.mem_filter.mp hkey).2, fun key => ih _⟩

theorem scrubMetadataValue_eq (j : Json) :
    scrubMetadataValue lower j = j.without (scrubListed lower) := by
  induction j with
  | null | bool _ | string _ | number _ => rfl
  | array n elements ih => simp only [scrubMetadataValue, Json.without, ih]
  | object keys values ih =>
    simp only [scrubMetadataValue, Json.without, ih]
    rfl

theorem Json.without_mapNumbers (j : Json) :
    (j.mapNumbers f).without p = (j.without p).mapNumbers f := by
  induction j with
  | null | bool _ | string _ | number _ => rfl
  | array n elements ih => simp only [mapNumbers, without, ih]
  | object keys values ih => simp only [mapNumbers, without, ih]

theorem Json.mapNumbers_eq_self (j : Json) :
    j.mapNumbers f = j ↔ j.allNumbers (fun q => f q = q) = true := by
  induction j with
  | null | bool _ | string _ => simp [mapNumbers, allNumbers]
  | number q => simp [mapNumbers, allNumbers]
  | array n elements ih => simp [mapNumbers, allNumbers, funext_iff, ih]
  | object keys values ih => simp [mapNumbers, allNumbers, funext_iff, ih]

theorem scrubMetadataPII_eq_iff (float64 : ℚ → Option ℚ) (lower : String → String) (raw : Json) :
    scrubMetadataPII float64 lower raw = raw.without (scrubListed lower) ↔
      (Decodes float64 raw ∧ (raw.without (scrubListed lower)).allNumbers
        (fun q => (float64 q).all (· = q)) = true) ∨
      (¬ Decodes float64 raw ∧ raw.without (scrubListed lower) = .empty) := by
  have hsame : (fun q => decide ((float64 q).getD q = q)) = fun q => (float64 q).all (· = q) := by
    funext q
    cases float64 q <;> simp
  by_cases hdecodes : Decodes float64 raw
  · simp only [scrubMetadataPII, unmarshal, hdecodes, if_true, scrubMetadataValue_eq,
      Json.without_mapNumbers, Json.mapNumbers_eq_self, hsame, true_and, not_true, false_and,
      or_false]
  · simp only [scrubMetadataPII, unmarshal, hdecodes, if_false, false_and, false_or, not_false_iff,
      true_and]
    exact eq_comm

/-- No listed key is left, and the document is the original without them exactly when every number
that stays is written as it was; one that does not decode must have nothing that stays. -/
theorem scrub_removes_exactly_iff (float64 : ℚ → Option ℚ) (lower : String → String)
    (raw : Json) :
    (scrubMetadataPII float64 lower raw).NoKey (scrubListed lower) ∧
    (scrubMetadataPII float64 lower raw = raw.without (scrubListed lower) ↔
      (Decodes float64 raw ∧ (raw.without (scrubListed lower)).allNumbers
        (fun q => (float64 q).all (· = q)) = true) ∨
      (¬ Decodes float64 raw ∧ raw.without (scrubListed lower) = .empty)) := by
  refine ⟨?_, scrubMetadataPII_eq_iff float64 lower raw⟩
  unfold scrubMetadataPII
  split
  · exact ⟨by simp, fun key => absurd key.2 (Finset.notMem_empty _)⟩
  · rw [scrubMetadataValue_eq]
    exact Json.noKey_without ..

/-- `float64` at integers of up to 54 bits, ties to even. Other numbers are taken to have few
digits. -/
def double (q : ℚ) : Option ℚ :=
  if q.den = 1 ∧ 2 ^ 53 < q.num.natAbs ∧ q.num % 2 = 1 then
    some (if q.num % 4 = 1 then q - 1 else q + 1)
  else some q

def largeSize : Json := .object {"size"} fun _ => .number 9007199254740993

theorem scrub_changes_integer :
    double 9007199254740993 = some 9007199254740992 ∧
      scrubMetadataPII double id largeSize ≠ largeSize.without (scrubListed id) := by
  refine ⟨by decide +kernel, fun hsame => ?_⟩
  rcases (scrubMetadataPII_eq_iff ..).mp hsame with ⟨-, hwritten⟩ | ⟨hdecodes, -⟩
  · revert hwritten
    decide +kernel
  · exact hdecodes (by decide)

end Shiftgate.Accounts
