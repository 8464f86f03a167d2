import Shiftgate.Objectstore.S3

/-! What the answers of the S3 store mean, in every run of any number of calls. An object is never
replaced, so a call can be followed by itself (`ensures_put`, `ensures_get`). -/

namespace Shiftgate.Objectstore.S3

open Library Securestore Growth.Ensures Pool Except

section Definitions

variable (c : Config)

def announced (stream : Bytes) (size : Int) (expected : String) : Bool :=
  stream.length = size &&
    match expectedHash c.toEncoding expected with
    | .ok digest => digest = "" || digest = c.sha256 stream
    | .error _ => true

/-- A stream that is not the announced one ends too early. -/
def Consistent : Op → Prop
  | .put _ stream size expected =>
    0 ≤ size → size ≤ stream.length → announced c stream size expected
  | .get _ | .head _ => True

/-- A conditional write finds an object only if there is no prefix. -/
def Plain (s : Bucket) : Request → Prop
  | .put key _ _ _ => (s key).isSome → c.keyPrefix = ""
  | .head _ | .get _ => True

def Careful (p : Pool Bucket Op Answer Reply) : Move Op Choice → Prop
  | .call op => Consistent c op
  | .advance n _ => ∀ request ∈ p.asks n, Plain c p.shared request
  | .finish _ => True
  | .crash => True

instance : (op : Op) → Decidable (Consistent c op)
  | .put _ stream size expected => inferInstanceAs
      (Decidable (0 ≤ size → size ≤ stream.length → announced c stream size expected = true))
  | .get _ | .head _ => isTrue trivial

instance (s : Bucket) : (request : Request) → Decidable (Plain c s request)
  | .put key _ _ _ => inferInstanceAs (Decidable ((s key).isSome = true → c.keyPrefix = ""))
  | .head _ | .get _ => isTrue trivial

instance (p : Pool Bucket Op Answer Reply) : (move : Move Op Choice) → Decidable (Careful c p move)
  | .call op => inferInstanceAs (Decidable (Consistent c op))
  | .advance n _ => inferInstanceAs (Decidable (∀ request ∈ p.asks n, Plain c p.shared request))
  | .finish _ => isTrue trivial
  | .crash => isTrue trivial

structure Proper (o : StoredObject) : Prop where
  own : o.recorded = "" ∨ c.sha256 o.content = o.recorded
  form : recordedHash c o.recorded = .ok o.recorded

def Writes (op : Op) (full : String) (o : StoredObject) : Prop :=
  ∃ key size expected, op = .put key o.content size expected ∧ fullKey c key = .ok full ∧
    0 ≤ size ∧ announced c o.content size expected = true ∧
    expectedHash c.toEncoding expected = .ok o.recorded

def growth (Extra : String → StoredObject → Prop) : Growth (store c) where
  le s t := ∀ key o, s key = some o → t key = some o
  refl _ _ _ h := h
  trans h h' key o ho := h' key o (h key o ho)
  Inv s := ∀ key o, s key = some o → Proper c o ∧ Extra key o
  calls op := Consistent c op ∧ ∀ full o, Writes c op full o → Extra full o
  allowed s _ request _ := Plain c s request
  restart_grows _ _ _ h := h
  restart_keeps _ h := h

def Accepted (size : Int) (digest : String) (o : StoredObject) : Prop :=
  (o.content.length : Int) = size ∧ (digest = "" ∨ o.recorded = digest)

def Valid (key : String) (size : Int) (expected : String) (full digest : String) : Prop :=
  fullKey c key = .ok full ∧ 0 ≤ size ∧ size ≤ maxObjectSize ∧
    expectedHash c.toEncoding expected = .ok digest

/-- A `Put` says that the object is there, or why not; a `Get` whose object was there when it began
returns it. -/
def Means (op : Op) (start : Bucket) (failed : Bool) (s : Bucket) (a : Answer) : Prop :=
  match op with
  | .put key stream size expected =>
    (∃ info full digest o, a = .info info ∧ Valid c key size expected full digest ∧
      s full = some o ∧ Accepted size digest o) ∨
    (∃ e, a = .error e) ∧ (failed = true ∨ announced c stream size expected = false ∨
      (∀ full digest, ¬ Valid c key size expected full digest) ∨
      ∃ full digest o, Valid c key size expected full digest ∧ s full = some o ∧
        ¬ Accepted size digest o)
  | .get key => ∀ full o, fullKey c key = .ok full → start full = some o → failed = false →
      ∃ info, a = .content info o.content
  | .head _ => True

end Definitions

variable {c : Config} {Extra : String → StoredObject → Prop} {α : Type} {n : Nat} {op : Op}
  {Q : Bool → Bucket → α → Prop} {failed : Bool} {s : Bucket}

variable {key expected digest full : String} {o : StoredObject} {stream : Bytes} {size : Int}
  {start : Bucket}

theorem growth_le_update (h : s key = none) :
    (growth c Extra).le s (Function.update s key (some o)) := by
  intro k o' hk
  by_cases hkey : k = key
  · subst hkey
    rw [h] at hk
    cases hk
  · rwa [Function.update_of_ne hkey]

theorem ensures_send {request : Request} {next : Reply request → Client α}
    (hok : ∀ s' kept, (growth c Extra).le s s' → (growth c Extra).Inv s' → Plain c s' request →
      (growth c Extra).le s' (perform s' request kept).1 ∧
        (growth c Extra).Inv (perform s' request kept).1 ∧
        (growth c Extra).Ensures n op Q (next (perform s' request kept).2) failed
          (perform s' request kept).1)
    (hfail : ∀ s', (growth c Extra).le s s' →
      (growth c Extra).Ensures n op Q (next (broken request)) true s') :
    (growth c Extra).Ensures n op Q (.ask request next) failed s := by
  rintro s' ⟨fault, kept⟩ t r hle hinv hplain hserve
  obtain ⟨hgrown, hkept, hnext⟩ := hok s' kept hle hinv hplain
  have hserve : serve s' request ⟨fault, kept⟩ = (t, r) := Option.some.inj hserve
  match fault, hserve with
  | none, hserve =>
    obtain ⟨rfl, rfl⟩ := Prod.ext_iff.mp (show perform s' request kept = (t, r) from hserve)
    exact ⟨hgrown, hkept, by simpa [store] using hnext⟩
  | some .request, hserve =>
    cases hserve
    exact ⟨(growth c Extra).refl _, hinv, by simpa [store] using hfail s' hle⟩
  | some .reply, hserve =>
    cases hserve
    exact ⟨hgrown, hkept, by simpa [store] using hfail _ ((growth c Extra).trans hle hgrown)⟩

theorem ensures_read {request : Request} {next : Reply request → Client α}
    {view : StoredObject → Reply request} {missing : Reply request}
    (hperform : ∀ s' kept, perform s' request kept = (s', ((s' key).map view).getD missing))
    (hsome : ∀ s' o, (growth c Extra).le s s' → Proper c o → s' key = some o →
      (growth c Extra).Ensures n op Q (next (view o)) failed s')
    (hnone : ∀ s', (growth c Extra).le s s' → s' key = none →
      (growth c Extra).Ensures n op Q (next missing) failed s')
    (hfail : ∀ s', (growth c Extra).le s s' →
      (growth c Extra).Ensures n op Q (next (broken request)) true s') :
    (growth c Extra).Ensures n op Q (.ask request next) failed s := by
  refine ensures_send (fun s' kept hle hinv _ => ?_) hfail
  rw [hperform]
  refine ⟨(growth c Extra).refl _, hinv, ?_⟩
  cases ho : s' key with
  | some o => exact hsome s' o hle (hinv key o ho).1 ho
  | none => exact hnone s' hle ho

theorem perform_head (s : Bucket) (kept : Nat) : perform s (.head key) kept =
    (s, ((s key).map fun o => .ok (headers o)).getD (.error .notFound)) := by
  cases h : s key <;> simp [perform, h]

theorem perform_get (s : Bucket) (kept : Nat) : perform s (.get key) kept =
    (s, ((s key).map fun o => .ok (headers o, o.content)).getD (.error .notFound)) := by
  cases h : s key <;> simp [perform, h]

theorem recordedHash_expected (h : expectedHash c.toEncoding expected = .ok digest) :
    recordedHash c digest = .ok digest := by
  have hnormal : digest = c.normalise expected := by
    simp only [expectedHash] at h
    split at h
    · rename_i hempty
      rw [hempty]
      exact (ok.inj h).symm
    · split at h
      · cases h
      · split at h
        · cases h
        · exact (ok.inj h).symm
  have hagain : c.normalise digest = digest := by
    rw [hnormal, c.normalise_normalise]
  have hself : expectedHash c.toEncoding digest = .ok digest := by
    simp only [expectedHash] at h ⊢
    rw [← hnormal] at h
    rwa [hagain]
  simp only [recordedHash, hagain, hself]
  split
  · rename_i hempty
    rw [hempty]
  · rfl

theorem ensures_putRequest {next : Except Failure Unit → Client α}
    (hcalls : (growth c Extra).calls (.put key stream size expected))
    (hvalid : Valid c key size expected full digest)
    (hconflict : ∀ s' o, (growth c Extra).le s s' → Proper c o → s' full = some o →
      c.keyPrefix = "" →
      (growth c Extra).Ensures n op Q (next (.error .conflict)) failed s')
    (hshort : (stream.length : Int) < size → ∀ s', (growth c Extra).le s s' →
      (growth c Extra).Ensures n op Q (next (.error .remote)) failed s')
    (hstored : announced c stream size expected = true → ∀ s', (growth c Extra).le s s' →
      s' full = some ⟨stream, digest⟩ →
      (growth c Extra).Ensures n op Q (next (.ok ())) failed s')
    (hfail : ∀ s', (growth c Extra).le s s' →
      (growth c Extra).Ensures n op Q (next (.error .remote)) true s') :
    (growth c Extra).Ensures n op Q (.ask (.put full stream size digest) next) failed s := by
  refine ensures_send (fun s' kept hle hinv hplain => ?_) hfail
  obtain ⟨hfull, hsize, -, hdigest⟩ := hvalid
  simp only [perform]
  cases ho : s' full with
  | some o =>
    have hempty : c.keyPrefix = "" := hplain (by simp [ho])
    exact ⟨(growth c Extra).refl _, hinv, hconflict s' o hle (hinv full o ho).1 ho hempty⟩
  | none =>
    by_cases hlength : (stream.length : Int) < size
    · simp only [if_pos hlength]
      exact ⟨(growth c Extra).refl _, hinv, hshort hlength s' hle⟩
    · simp only [if_neg hlength]
      have hannounced : announced c stream size expected = true :=
        hcalls.1 hsize (by omega)
      obtain ⟨hexact, hfits⟩ := Bool.and_eq_true_iff.mp hannounced
      have hwhole : stream.take (max size.toNat kept) = stream :=
        List.take_of_length_le (by have := of_decide_eq_true hexact; omega)
      rw [hwhole]
      refine ⟨growth_le_update ho, ?_, ?_⟩
      · intro k o hk
        by_cases hkey : k = full
        · subst hkey
          rw [Function.update_self] at hk
          cases hk
          refine ⟨⟨?_, recordedHash_expected hdigest⟩, ?_⟩
          · simp only [hdigest, Bool.or_eq_true, decide_eq_true_eq] at hfits
            exact hfits.imp_right Eq.symm
          · exact hcalls.2 _ _ ⟨key, size, expected, rfl, hfull, hsize, hannounced, hdigest⟩
        · rw [Function.update_of_ne hkey] at hk
          exact hinv k o hk
      · refine hstored hannounced _ ?_ (Function.update_self ..)
        exact (growth c Extra).trans hle (growth_le_update ho)

theorem ensures_headFull {Q : Bool → Bucket → Except Failure ObjectInfo → Prop}
    (hsome : ∀ s' o, (growth c Extra).le s s' → s' full = some o →
      Q failed s' (.ok ⟨full, o.content.length, o.recorded⟩))
    (hnone : s full = none → ∀ s', (growth c Extra).le s s' → Q failed s' (.error .notFound))
    (hfail : ∀ s', (growth c Extra).le s s' → Q true s' (.error .remote)) :
    (growth c Extra).Ensures n op Q (headFull c full) failed s := by
  have htrans := @(growth c Extra).trans
  unfold headFull send
  simp only [Thread.perform_bind]
  refine ensures_read perform_head (fun s' o hle hproper ho => ?_) (fun s' hle ho => ?_)
    fun s' hle => ?_
  · simp only [headers, hproper.form]
    exact fun t ht => hsome t o (htrans hle ht) (ht full o ho)
  · have habsent : s full = none := by
      cases hs : s full with
      | none => rfl
      | some o =>
        rw [hle full o hs] at ho
        cases ho
    exact fun t ht => hnone habsent t (htrans hle ht)
  · exact fun t ht => hfail t (htrans hle ht)

theorem accepts_iff :
    accepts size digest ⟨full, o.content.length, o.recorded⟩ = true ↔ Accepted size digest o := by
  simp [accepts, Accepted]

variable {t : Bucket}

section

variable (hvalid : Valid c key size expected full digest) (ho : t full = some o)

include hvalid ho

theorem Means.found (haccepted : Accepted size digest o) (info : ObjectInfo) :
    Means c (.put key stream size expected) start failed t (.info info) :=
  .inl ⟨info, full, digest, o, rfl, hvalid, ho, haccepted⟩

theorem Means.other (hother : ¬ Accepted size digest o) (e : Failure) :
    Means c (.put key stream size expected) start failed t (.error e) :=
  .inr ⟨⟨e, rfl⟩, .inr (.inr (.inr ⟨full, digest, o, hvalid, ho, hother⟩))⟩

end

theorem Means.broken (e : Failure) :
    Means c (.put key stream size expected) start true t (.error e) :=
  .inr ⟨⟨e, rfl⟩, .inl rfl⟩

theorem ensures_accepts {info : ObjectInfo} (hvalid : Valid c key size expected full digest)
    (ho : s full = some o) :
    (growth c Extra).Ensures n op
      (fun failed' t r => Means c (.put key stream size expected) start failed' t (.of .info r))
      (if accepts size digest ⟨full, o.content.length, o.recorded⟩ then pure (.ok info)
        else pure (.error .conflict)) failed s := by
  by_cases haccepted : Accepted size digest o
  · rw [if_pos (accepts_iff.mpr haccepted)]
    exact fun t ht => .found hvalid (ht full o ho) haccepted info
  · rw [if_neg (fun h => haccepted (accepts_iff.mp h))]
    exact fun t ht => .other hvalid (ht full o ho) haccepted .conflict

theorem externalInfo_plain (hempty : c.keyPrefix = "") (info : ObjectInfo) :
    externalInfo c info = info := by
  simp [externalInfo, externalKey, hempty]

section

variable (hcalls : (growth c Extra).calls (.put key stream size expected))

include hcalls

theorem ensures_putFull (hvalid : Valid c key size expected full digest) :
    (growth c Extra).Ensures n op
      (fun failed' t r => Means c (.put key stream size expected) start failed' t (.of .info r))
      (putFull c full stream size digest) failed s := by
  unfold putFull send
  simp only [Thread.perform_bind]
  refine ensures_putRequest hcalls hvalid ?_ ?_ ?_ fun s' _ t _ => .broken _
  · intro s' o hle _ ho hempty
    -- Without a prefix the full key is the key, and `Head` finds the object.
    have hfull : fullKey c full = .ok full := by
      have hkey := hvalid.1
      simp only [fullKey, hempty, if_true] at hkey ⊢
      cases hvalidate : validateKey key with
      | error e =>
        rw [hvalidate] at hkey
        cases hkey
      | ok u =>
        rw [hvalidate] at hkey
        cases hkey
        rw [hvalidate]
    refine bind ?_
    unfold head
    rw [hfull]
    refine bind ?_
    refine ensures_headFull (fun t found ht hfound => ?_) (fun hnone => ?_) fun t ht => ?_
    · intro u hu
      rw [externalInfo_plain hempty]
      exact ensures_accepts hvalid (hu full found hfound)
    · rw [ho] at hnone
      cases hnone
    · exact fun u hu v hv => .broken _
  · intro hshort s' hle t ht
    refine .inr ⟨⟨_, rfl⟩, .inr (.inl ?_)⟩
    simp only [announced, Bool.and_eq_false_iff, decide_eq_false_iff_not]
    exact .inl (by omega)
  · intro hannounced s' hle ho
    obtain ⟨hexact, hfits⟩ := Bool.and_eq_true_iff.mp hannounced
    have hlength : (stream.length : Int) = size := of_decide_eq_true hexact
    simp only [hvalid.2.2.2, Bool.or_eq_true, decide_eq_true_eq] at hfits
    show (growth c Extra).Ensures n op _ (if _ then _ else _) failed s'
    rw [if_neg (by rintro (h | ⟨h, h'⟩) <;> grind)]
    refine bind ?_
    refine ensures_headFull (fun t found ht hfound => ?_) (fun hnone => ?_) fun t ht => ?_
    · have hsame : found = ⟨stream, digest⟩ := by
        rw [ht full _ ho] at hfound
        exact (Option.some.inj hfound).symm
      subst hsame
      exact fun u hu => .found hvalid (hu full _ hfound) ⟨hlength, .inr rfl⟩ _
    · rw [ho] at hnone
      cases hnone
    · exact fun u hu => .broken _

theorem ensures_put :
    (growth c Extra).Ensures n op
      (fun failed' t r => Means c (.put key stream size expected) start failed' t (.of .info r))
      (put c key stream size expected) failed s := by
  have hinvalid : ∀ e t, (∀ full digest, ¬ Valid c key size expected full digest) →
      Means c (.put key stream size expected) start failed t (.error e) :=
    fun e t h => .inr ⟨⟨e, rfl⟩, .inr (.inr (.inl h))⟩
  unfold put
  cases hfull : fullKey c key with
  | error e =>
    refine fun t _ => hinvalid _ t fun full digest hvalid => ?_
    rw [hvalid.1] at hfull
    cases hfull
  | ok full =>
    show (growth c Extra).Ensures n op _ (if _ then _ else _) failed s
    by_cases hsize : size < 0 ∨ size > maxObjectSize
    · rw [if_pos hsize]
      refine fun t _ => hinvalid _ t fun full digest hvalid => ?_
      obtain ⟨-, hlow, hhigh, -⟩ := hvalid
      omega
    · rw [if_neg hsize]
      cases hdigest : expectedHash c.toEncoding expected with
      | error e =>
        refine fun t _ => hinvalid _ t fun full digest hvalid => ?_
        rw [hvalid.2.2.2] at hdigest
        cases hdigest
      | ok digest =>
        have hvalid : Valid c key size expected full digest :=
          ⟨hfull, by omega, by omega, hdigest⟩
        refine bind ?_
        refine ensures_headFull (fun t o ht ho => ?_) (fun _ t _ => ?_) fun t ht => ?_
        · exact ensures_accepts hvalid ho
        · exact ensures_putFull hcalls hvalid
        · exact fun u hu => .broken _

end

theorem ensures_get (hstart : (growth c Extra).le start s) :
    (growth c Extra).Ensures n op
      (fun failed' t r => Means c (.get key) start failed' t
        (.of (fun found => .content found.1 found.2) r))
      (get c key) failed s := by
  unfold get send
  cases hfull : fullKey c key with
  | error e =>
    intro t ht full o hkey
    rw [hfull] at hkey
    cases hkey
  | ok full =>
    have hsame : ∀ full', fullKey c key = .ok full' → full' = full := by
      intro full' h
      rw [hfull] at h
      exact (ok.inj h).symm
    simp only [Thread.perform_bind]
    refine ensures_read perform_get (fun s' o hle hproper ho => ?_) (fun s' hle ho => ?_)
      fun s' hle t ht full' o hkey hsome hfailed => nomatch hfailed
    · have hform : recordedHash c (headers o).sha256 = .ok o.recorded := hproper.form
      have hlength : ¬ ((headers o).contentLength ≥ 0 ∧
          (o.content.length : Int) ≠ (headers o).contentLength) := by simp [headers]
      have hown : ¬ (o.recorded ≠ "" ∧ c.sha256 o.content ≠ o.recorded) := by
        rintro ⟨hne, hsha⟩
        exact hproper.own.elim hne hsha
      simp only [hform]
      rw [if_neg hlength, if_neg hown]
      intro t ht full' o' hkey hsome hfailed
      rw [hsame full' hkey] at hsome
      have hfound := hle full o' (hstart full o' hsome)
      rw [ho] at hfound
      cases hfound
      exact ⟨_, rfl⟩
    · intro t ht full' o' hkey hsome hfailed
      rw [hsame full' hkey] at hsome
      have hfound := hle full o' (hstart full o' hsome)
      rw [ho] at hfound
      cases hfound

theorem ensures_program (n : Nat) (op : Op) (s : Bucket) (hcalls : (growth c Extra).calls op)
    (_ : (growth c Extra).Inv s) :
    (growth c Extra).Ensures n op (Means c op s) ((store c).program op) false s := by
  cases op with
  | put key stream size expected => exact (ensures_put hcalls).map
  | get key => exact (ensures_get ((growth c Extra).refl s)).map
  | head key =>
    refine map ?_
    unfold head
    cases fullKey c key with
    | error e => exact fun _ _ => trivial
    | ok full =>
      refine bind ?_
      exact ensures_headFull (fun _ _ _ _ _ _ => trivial) (fun _ _ _ _ _ => trivial)
        fun _ _ _ _ => trivial

theorem headFull_ends (key : String) : (headFull c key).Ends 1 := by
  unfold headFull send
  simp only [Thread.perform_bind]
  intro reply
  cases reply with
  | error e => exact .done 0 _
  | ok found =>
    dsimp only
    split <;> exact .done 0 _

theorem head_ends (key : String) : (head c key).Ends 1 := by
  unfold head
  cases fullKey c key with
  | error e => exact .done 1 _
  | ok full =>
    refine (headFull_ends full).bind (k := 0) fun found => ?_
    cases found with
    | error e => exact .done 0 _
    | ok info => exact .done 0 _

theorem putFull_ends (key : String) (stream : Bytes) (size : Int) (expected : String) :
    (putFull c key stream size expected).Ends 2 := by
  intro reply
  cases reply with
  | error e =>
    cases e with
    | conflict =>
      refine (head_ends key).bind (k := 0) fun found => ?_
      cases found with
      | error e => exact .done 0 _
      | ok existing =>
        dsimp only
        split <;> exact .done 0 _
    | notFound | integrity | remote | invalidKey | sizeRange | digest => exact .done 1 _
  | ok u =>
    show (if _ then _ else _ : Client _).Ends 1
    split
    · exact .done 1 _
    · refine (headFull_ends key).bind (k := 0) fun found => ?_
      cases found with
      | error e => exact .done 0 _
      | ok info => exact .done 0 _

theorem put_ends (key : String) (stream : Bytes) (size : Int) (expected : String) :
    (put c key stream size expected).Ends 3 := by
  unfold put
  cases fullKey c key with
  | error e => exact .done 3 _
  | ok full =>
    dsimp only
    split
    · exact .done 3 _
    · cases expectedHash c.toEncoding expected with
      | error e => exact .done 3 _
      | ok digest =>
        refine (headFull_ends full).bind (k := 2) fun found => ?_
        cases found with
        | ok existing =>
          dsimp only
          split <;> exact .done 2 _
        | error e =>
          cases e with
          | notFound => exact putFull_ends full stream size digest
          | conflict | integrity | remote | invalidKey | sizeRange | digest => exact .done 2 _

theorem get_ends (key : String) : (get c key).Ends 1 := by
  unfold get
  cases fullKey c key with
  | error e => exact .done 1 _
  | ok full =>
    unfold send
    simp only [Thread.perform_bind]
    intro reply
    cases reply with
    | error e => exact .done 0 _
    | ok found =>
      dsimp only
      split
      · exact .done 0 _
      · split
        · exact .done 0 _
        · split <;> exact .done 0 _

theorem program_ends (op : Op) : ((store c).program op).Ends 3 := by
  cases op with
  | put key stream size expected =>
    exact (put_ends key stream size expected).bind (k := 0) fun _ => .done 0 _
  | get key => exact ((get_ends key).bind (k := 0) fun _ => .done 0 _).mono (by omega)
  | head key => exact ((head_ends key).bind (k := 0) fun _ => .done 0 _).mono (by omega)

/-- Every object is the announced stream of a `Put` of the run. -/
def Written (c : Config) (moves : List (Move Op Choice)) (full : String) (o : StoredObject) :
    Prop :=
  ∃ op, .call op ∈ moves ∧ Writes c op full o

theorem allowed_of_careful {moves : List (Move Op Choice)} {p : Pool Bucket Op Answer Reply}
    {part : List (Move Op Choice)} (hpart : part ⊆ moves)
    (h : Meets (step (store c)) (Careful c) p part) :
    Meets (step (store c)) (growth c (Written c moves)).Allowed p part := by
  have hcalls : Meets (step (store c)) (fun _ move => move ∈ moves) p part :=
    .of_forall (fun _ hmove => hpart hmove) p
  refine (h.and hcalls).imp fun p move hmove => ?_
  obtain ⟨hcareful, hmem⟩ := hmove
  cases move with
  | call op => exact ⟨hcareful, fun full o hwrites => ⟨op, hmem, hwrites⟩⟩
  | advance n x => exact fun _ _ request hasks => hcareful request hasks
  | finish n => trivial
  | crash => trivial

theorem fullKey_injective {key' : String} (h : fullKey c key = .ok full)
    (h' : fullKey c key' = .ok full) : key = key' := by
  simp only [fullKey] at h h'
  split at h
  · cases h
  · split at h'
    · cases h'
    · by_cases hempty : c.keyPrefix = ""
      · simp only [hempty, if_true, ok.injEq] at h h'
        rw [h, h']
      · simp only [hempty, if_false, ok.injEq] at h h'
        rw [← h'] at h
        have hlists := congrArg String.toList h
        simp only [String.toList_append, List.append_cancel_left_eq] at hlists
        exact String.toList_injective hlists

abbrev Followed (c : Config) (moves : List (Move Op Choice)) (first : Nat) (base : Bucket)
    (p : Pool Bucket Op Answer Reply) : Prop :=
  (growth c (Written c moves)).Kept (Means c) first base p

section Followed

variable {moves : List (Move Op Choice)} {first : Nat} {base : Bucket}
  {p q : Pool Bucket Op Answer Reply} {a : Answer}

theorem Followed.means (h : Followed c moves first base p) (hop : p.op n = some op)
    (ha : .answer n a ∈ p.history) :
    ∃ start failed, (first ≤ n → (growth c (Written c moves)).le base start) ∧
      (failed = true → .fault n ∈ p.history) ∧ Means c op start failed p.shared a := by
  obtain ⟨op', start, failed, hbegan, hmeans⟩ := h.answered n a ha
  cases hbegan.op_eq.symm.trans hop
  exact ⟨start, failed, hbegan.after, hbegan.fault, hmeans p.shared fun _ _ ho => ho⟩

theorem Followed.object {info : ObjectInfo} (h : Followed c moves first base p)
    (hop : p.op n = some (.put key stream size expected))
    (hdigest : expectedHash c.toEncoding expected = .ok digest) (hne : digest ≠ "")
    (ha : .answer n (.info info) ∈ p.history) :
    ∃ full o, fullKey c key = .ok full ∧ p.shared full = some o ∧ c.sha256 o.content = digest := by
  obtain ⟨start, failed, -, -, hmeans⟩ := h.means hop ha
  rcases hmeans with ⟨-, full, digest', o, -, hvalid, ho, haccepted⟩ | ⟨⟨e, he⟩, -⟩
  · have hsame := ok.inj (hvalid.2.2.2.symm.trans hdigest)
    subst hsame
    have hrecorded : o.recorded = digest' := haccepted.2.resolve_left hne
    refine ⟨full, o, hvalid.1, ho, ?_⟩
    rw [← hrecorded]
    exact (h.inv full o ho).1.own.resolve_left (hrecorded ▸ hne)
  · cases he

section

variable (h : Followed c moves first base q) (hfull : fullKey c key = .ok full)

include h hfull

theorem Followed.got (ho : base full = some o) (hlater : first ≤ n) (hop : q.op n = some (.get key))
    (ha : .answer n a ∈ q.history) (hcalm : .fault n ∉ q.history) :
    ∃ info, a = .content info o.content := by
  obtain ⟨start, failed, hafter, hfault, hmeans⟩ := h.means hop ha
  have hunfailed : failed = false := by
    cases failed with
    | false => rfl
    | true => exact absurd (hfault rfl) hcalm
  exact hmeans full o hfull (hafter hlater full o ho) hunfailed

theorem Followed.accepted (ho : q.shared full = some o) :
    (∃ size expected, .call (.put key o.content size expected) ∈ moves ∧
      announced c o.content size expected = true) ∧
    ∀ size digest, digest ≠ "" → Accepted size digest o → c.sha256 o.content = digest := by
  obtain ⟨hproper, op, hmem, key', size', expected', rfl, hfull', -, hannounced, -⟩ :=
    h.inv full o ho
  refine ⟨⟨size', expected', ?_, hannounced⟩, fun size digest hne haccepted => ?_⟩
  · rwa [fullKey_injective hfull hfull']
  · have hrecorded : o.recorded = digest := haccepted.2.resolve_left hne
    rw [← hrecorded]
    exact hproper.own.resolve_left (hrecorded ▸ hne)

theorem Followed.same {content : Bytes} (hlength : content.length ≤ maxObjectSize)
    (hsame : ∀ stream size expected, .call (.put key stream size expected) ∈ moves →
      stream = content ∧ announced c content size expected = true ∧
        expectedHash c.toEncoding expected = .ok digest)
    (hcall : .call (.put key stream size expected) ∈ moves)
    (hop : q.op n = some (.put key stream size expected)) (ha : .answer n a ∈ q.history)
    (hcalm : .fault n ∉ q.history) : ∃ info, a = .info info := by
  obtain ⟨rfl, hannounced, hdigest⟩ := hsame stream size expected hcall
  have hsize : (stream.length : Int) = size :=
    of_decide_eq_true (Bool.and_eq_true_iff.mp hannounced).1
  obtain ⟨start, failed, -, hfault, hmeans⟩ := h.means hop ha
  rcases hmeans with ⟨info, -, -, -, rfl, -⟩ | ⟨-, hwhy⟩
  · exact ⟨info, rfl⟩
  · exfalso
    rcases hwhy with hfailed | hnot | hinvalid | ⟨full', digest', o, hvalid, ho, hother⟩
    · exact hcalm (hfault hfailed)
    · rw [hannounced] at hnot
      cases hnot
    · exact hinvalid full digest ⟨hfull, by omega, by omega, hdigest⟩
    · -- The object there is the content too, with the same digest.
      obtain ⟨-, op, hmem, key', size', expected', rfl, hfull', -, -, hdigest'⟩ := h.inv full' o ho
      rw [← fullKey_injective hvalid.1 hfull'] at hmem
      obtain ⟨hcontent, -, hrecorded⟩ := hsame _ _ _ hmem
      refine hother ⟨by rw [hcontent]; exact hsize, .inr ?_⟩
      have hone := hdigest'.symm.trans hrecorded
      have htwo := hvalid.2.2.2.symm.trans hdigest
      rw [ok.inj hone, ok.inj htwo]

end

end Followed

/-- In every run from an empty bucket whose moves are careful: after a `Put` with a digest has
succeeded, every later `Get` whose request is not lost returns bytes with that digest; a stream that
was not the announced one never becomes an object, and what a `Put` accepts for a digest has it;
`Put`s of one key and one content all succeed unless a request is lost; and every call ends after
at most three requests. -/
theorem put_honest (c : Config) {before after : List (Move Op Choice)}
    {p q : Pool Bucket Op Answer Reply}
    (hmeets : Meets (Pool.step (store c)) (Careful c) (Pool.initial fun _ => none)
      (before ++ after))
    (hp : exec (Pool.step (store c)) (Pool.initial fun _ => none) before = some p)
    (hq : exec (Pool.step (store c)) p after = some q) :
    (∀ n key stream size expected digest info, p.op n = some (.put key stream size expected) →
      expectedHash c.toEncoding expected = .ok digest → digest ≠ "" →
      .answer n (.info info) ∈ p.history →
      ∀ k a, p.calls.length ≤ k → q.op k = some (.get key) → .answer k a ∈ q.history →
        .fault k ∉ q.history → ∃ info' content, a = .content info' content ∧
          c.sha256 content = digest) ∧
    (∀ key full o, fullKey c key = .ok full → q.shared full = some o →
      (∃ size expected, .call (.put key o.content size expected) ∈ before ++ after ∧
        announced c o.content size expected = true) ∧
      ∀ size digest, digest ≠ "" → Accepted size digest o → c.sha256 o.content = digest) ∧
    (∀ key content full digest, fullKey c key = .ok full → content.length ≤ maxObjectSize →
      (∀ stream size expected, .call (.put key stream size expected) ∈ before ++ after →
        stream = content ∧ announced c content size expected = true ∧
          expectedHash c.toEncoding expected = .ok digest) →
      ∀ n stream size expected a, q.op n = some (.put key stream size expected) →
        .answer n a ∈ q.history → .fault n ∉ q.history → ∃ info, a = .info info) ∧
    ∀ op, ((store c).program op).Ends 3 := by
  obtain ⟨hbefore, hafter⟩ := hmeets.append hp
  have hinitial : Followed c (before ++ after) 0 (fun _ => none) (initial fun _ => none) :=
    .initial fun _ _ h => nomatch h
  have hkeptp := hinitial.run ensures_program
    (allowed_of_careful (List.subset_append_left ..) hbefore) hp
  have hlater := allowed_of_careful (List.subset_append_right before after) hafter
  have hkept := hkeptp.run ensures_program hlater hq
  refine ⟨?_, ?_, ?_, program_ends⟩
  · intro n key stream size expected digest info hop hdigest hne hanswer k a hk hkop ha hcalm
    obtain ⟨full, o, hfull, ho, hsha⟩ := Followed.object hkeptp hop hdigest hne hanswer
    obtain ⟨info', hcontent⟩ :=
      Followed.got (hkeptp.rebase.run ensures_program hlater hq) hfull ho hk hkop ha hcalm
    exact ⟨info', o.content, hcontent, hsha⟩
  · exact fun key full o hfull ho => Followed.accepted hkept hfull ho
  · intro key content full digest hfull hlength hsame n stream size expected a hop ha hcalm
    have hcall : .call (.put key stream size expected) ∈ before ++ after := by
      rcases op_of_exec (exec_append.mpr ⟨p, hp, hq⟩) hop with hinit | hcall
      · simp [op, initial] at hinit
      · exact hcall
    exact Followed.same hkept hfull hlength hsame hcall hop ha hcalm

namespace Sample

def config (keyPrefix : String) : Config where
  toEncoding := Objectstore.Sample.encoding
  keyPrefix := keyPrefix
  normalise_normalise _ := rfl

def content (byte : UInt8) : Bytes := List.replicate 63 byte

def request (n : Nat) : Move Op Choice := .advance n ⟨none, 0⟩

def callPut (stream : Bytes) : Move Op Choice :=
  .call (.put "a" stream 63 (Objectstore.Sample.digest (content 97)))

def info : ObjectInfo := ⟨"a", 63, Objectstore.Sample.digest (content 97)⟩

def stored : List (Move Op Choice) :=
  [callPut (content 97), request 0, request 0, request 0, .finish 0]

def read : List (Move Op Choice) := [.call (.get "a"), request 1, .finish 1]

def mismatched : List (Move Op Choice) :=
  [callPut (content 98), request 0, request 0, .finish 0, callPut (content 97), request 1,
    .finish 1]

def unreadable : List (Move Op Choice) := [.call (.get "a"), request 2, .finish 2]

def raced : List (Move Op Choice) :=
  [callPut (content 97), callPut (content 97), request 0, request 1, request 0, request 1,
    request 1, .finish 1]

end Sample

open S3.Sample

theorem put_honest_sample :
    ∃ q, exec (Pool.step (store (Sample.config "p"))) (Pool.initial fun _ => none)
        (Sample.stored ++ Sample.read) = some q ∧
      ∃ info content, .answer 1 (.content info content) ∈ q.history ∧
        (Sample.config "p").sha256 content = Sample.info.sha256 := by
  have hmeets : Meets (step (store (config "p"))) (Careful (config "p"))
      (initial fun _ => none) (stored ++ read) := by decide
  obtain ⟨p, hp, hlength, hop, hanswer, q, hq, hget, hcontent, hcalm⟩ : ∃ p,
      exec (step (store (config "p"))) (initial fun _ => none) stored =
        some p ∧ p.calls.length = 1 ∧
      p.op 0 = some (.put "a" (content 97) 63 info.sha256) ∧
      .answer 0 (.info info) ∈ p.history ∧
      ∃ q, exec (step (store (config "p"))) p read = some q ∧
        q.op 1 = some (.get "a") ∧
        .answer 1 (.content info (content 97)) ∈ q.history ∧
        .fault 1 ∉ q.history := by decide
  have hexpected : expectedHash (config "p").toEncoding info.sha256 =
      .ok info.sha256 := by decide
  obtain ⟨info', content', heq, hsha⟩ := (put_honest (config "p") hmeets hp hq).1 0 "a"
    _ _ _ _ _ hop hexpected (by decide) hanswer 1 _ (by omega) hget hcontent hcalm
  exact ⟨q, exec_append.mpr ⟨p, hp, hq⟩, info', content', heq ▸ hcontent, hsha⟩

/-- A `Put` succeeds and a later `Get` fails, since the object is the stream of an earlier `Put`
that failed; and of two `Put`s of one content, under a prefix, one fails. -/
theorem put_not_honest :
    (∃ p q, exec (Pool.step (store (Sample.config ""))) (Pool.initial fun _ => none)
        Sample.mismatched = some p ∧
      exec (Pool.step (store (Sample.config ""))) p Sample.unreadable = some q ∧
      .answer 0 (.error .integrity) ∈ p.history ∧ .answer 1 (.info Sample.info) ∈ p.history ∧
      .answer 2 (.error .integrity) ∈ q.history ∧ .fault 2 ∉ q.history) ∧
    ∃ p, exec (Pool.step (store (Sample.config "p"))) (Pool.initial fun _ => none) Sample.raced =
        some p ∧ .answer 1 (.error .conflict) ∈ p.history ∧ .fault 1 ∉ p.history := by
  simp only [exists_and_left]
  decide

end Shiftgate.Objectstore.S3
