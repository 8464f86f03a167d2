import Shiftgate.Checkpoint.RepositoryCalls

/-! Runs of the repository. In every run whose calls keep apart the repository is a durable and
immutable map. The calls take no lock for that, and two `Save`s of one id that overlap both report
success. -/

namespace Shiftgate.Checkpoint.Repository

open Library Securestore Chunkstore Checkpoint.Manifests List Option Pool

section Runs

variable {c : Codec} {keys : KeySource} {p q : Calls} {move : Move Op Choice} {n : Nat} {x : Choice}

theorem relies_refl (op : Op) (command : Option Command) (s : Cabinet) : Relies op command s s := by
  cases op with
  | save m =>
    simp only [Relies]
    split
    · exact .refl ..
    · exact fun _ => .refl ..
  | load id => trivial
  | list workloadID => trivial
  | delete id => exact .refl ..

/-- The calls are followed and keep apart: nobody else changes the id of a `Delete`, and at most one
`Save` of an id is storing. -/
structure Orderly (c : Codec) (keys : KeySource) (p : Calls) : Prop where
  kept : (contract c keys).Kept (ensured c keys) p
  deletes : ∀ n k id op u v, n ≠ k → p.op n = some (.delete id) → p.thread n = some u →
    p.op k = some op → p.thread k = some v → op.changes ≠ some id
  writes : ∀ n k m m' u v, n ≠ k → p.op n = some (.save m) → p.thread n = some u →
    p.op k = some (.save m') → p.thread k = some v → m.id = m'.id →
    writing u.asks = true → writing v.asks = false

/-! ### What `careful` says -/

variable {k first : Nat} {u : Caller Answer} {op : Op} {id : String} {command : Command}
  {moves : List (Move Op Choice)} {s before : Cabinet} {events : List (Event Op Answer)}

theorem careful_save {m : CheckpointManifest} (h : careful c keys p (.call (.save m)) = true)
    (hthread : p.thread k = some u) (hop : p.op k = some op) : op ≠ .delete m.id := by
  simp only [careful, List.all_eq_true] at h
  simpa using h _ (mem_calls hthread hop)

theorem careful_delete (h : careful c keys p (.call (.delete id)) = true)
    (hthread : p.thread k = some u) (hop : p.op k = some op) : op.changes ≠ some id := by
  simp only [careful, List.all_eq_true] at h
  simpa using h _ (mem_calls hthread hop)

theorem careful_crash (h : careful c keys p .crash = true) (hthread : p.thread k = some u) :
    removed u = false := by
  obtain ⟨op, hop⟩ := op_of_thread hthread
  simp only [careful, List.all_eq_true] at h
  simpa using h _ (mem_calls hthread hop)

theorem careful_advance (h : careful c keys p (.advance n x) = true) (hop : p.op n = some op)
    (hasks : p.asks n = some command) : admitted c keys p x op command = true := by
  simpa only [careful, hop, hasks] using h

theorem allows_of_careful (h : careful c keys p (.advance n x) = true) (hop : p.op n = some op)
    (hasks : p.asks n = some command) : Allows c keys op command x := by
  have hadmitted := careful_advance h hop hasks
  constructor
  · rintro m id rfl rfl hx
    simpa [admitted, hx] using hadmitted
  · rintro id rfl
    cases op <;> simpa [admitted] using hadmitted

theorem careful_look (h : careful c keys p (.advance n x) = true) {m : CheckpointManifest}
    (hop : p.op n = some (.save m)) (hasks : p.asks n = some (.indexGet id))
    (hthread : p.thread k = some u) (hop' : p.op k = some op) (hchanges : op.changes = some m.id) :
    writing u.asks = false := by
  have hadmitted := careful_advance h hop hasks
  simp only [admitted, List.all_eq_true] at hadmitted
  simpa [hchanges] using hadmitted _ (mem_calls hthread hop')

theorem thread_of_asks (h : p.asks k = some command) :
    ∃ u, p.thread k = some u ∧ u.asks = some command := bind_eq_some_iff.mp h

theorem Orderly.fits (h : Orderly c keys p) {op' : Op} {t : Caller Answer}
    (hadvanced : (contract c keys).Advanced p n q op command t) (hk : k ≠ n)
    (hop : p.op k = some op') (hthread : p.thread k = some u) :
    Relies op' u.asks p.shared q.shared := by
  have hdoes : Does op command t p.shared q.shared := hadvanced.does
  obtain ⟨v, hv, hasks⟩ := thread_of_asks hadvanced.asks
  cases op' with
  | load id => trivial
  | list workloadID => trivial
  | delete id => exact hdoes.others id (h.deletes k n id op u v hk hop hthread hadvanced.op_eq hv)
  | save m' =>
    by_cases hsame : op.changes = some m'.id
    · cases op with
      | load id => cases hsame
      | list workloadID => cases hsame
      | delete id =>
        exact absurd hsame.symm
          (h.deletes n k id _ v u hk.symm hadvanced.op_eq hv hop hthread)
      | save m =>
        have hid : m.id = m'.id := some.inj hsame
        simp only [Relies]
        split
        · rename_i hwriting
          have hquiet := h.writes k n m' m u v hk hop hthread hadvanced.op_eq hv hid.symm hwriting
          rw [hasks] at hquiet
          rw [hdoes.waiting m rfl hquiet]
          exact .refl ..
        · exact hid ▸ hdoes.retained m rfl
    · have huntouched := hdoes.others m'.id hsame
      simp only [Relies]
      split
      · exact huntouched
      · exact fun _ => huntouched

theorem Orderly.initial : Orderly c keys start where
  kept := .initial fun id summary h => by cases h
  deletes n k id op u v _ _ hu := by simp [Pool.thread, start, Pool.initial] at hu
  writes n k m m' u v _ _ hu := by simp [Pool.thread, start, Pool.initial] at hu

theorem Orderly.advanced (h : Orderly c keys p)
    (hcareful : careful c keys p (.advance n x) = true)
    (hstep : step (service c keys) p (.advance n x) = some q) :
    ∃ op command t, (contract c keys).Advanced p n q op command t := by
  obtain ⟨op, command, t, hadvanced, -⟩ := h.kept.advanced relies_refl
    (fun op command hop hasks => allows_of_careful hcareful hop hasks) hstep
  exact ⟨op, command, t, hadvanced⟩

def Undisturbed (p : Calls) (id : String) : Prop :=
  ∀ k op u, p.op k = some op → p.thread k = some u → op.changes ≠ some id

def Undeleted (p : Calls) (id : String) : Prop :=
  ∀ k u, p.thread k = some u → p.op k ≠ some (.delete id)

section Step

variable (h : Orderly c keys p) (hcareful : careful c keys p move = true)
  (hstep : Pool.step (service c keys) p move = some q)

include h hcareful hstep

theorem Orderly.keeps (hsha : Function.Injective c.sha256) :
    (contract c keys).Kept (ensured c keys) q := by
  refine h.kept.step relies_refl (fun _ op s _ => program_ensures hsha op s) ?_ ?_ hstep
  · rintro n x rfl op command hop hasks
    exact allows_of_careful hcareful hop hasks
  · intro n op command t k op' u hadvanced hk hop hthread
    exact h.fits hadvanced hk hop hthread

/-- A `Save` that is storing after a move was before, or has just looked while no other `Save` of
its id was storing. -/
theorem Orderly.writing_origin {m : CheckpointManifest} (hop : q.op k = some (.save m))
    (hthread : q.thread k = some u)
    (hwriting : writing u.asks = true) :
    ∃ v, p.op k = some (.save m) ∧ p.thread k = some v ∧
      (writing v.asks = true ∨ (∃ x, move = .advance k x) ∧ ∀ j op w, p.op j = some op →
        p.thread j = some w → op.changes = some m.id → writing w.asks = false) := by
  rcases thread_origin hstep hthread hop with ⟨-, -, rfl⟩ | ⟨hop', v, hv, hsame⟩
  · -- a `Save` begins with its key, or ends at once
    exfalso
    cases hverify : verifyManifest c m with
    | error err => simp [service, program, save, hverify, Thread.asks, writing] at hwriting
    | ok _ => simp [service, program_save hverify, Thread.asks, writing] at hwriting
  · refine ⟨v, hop', hv, ?_⟩
    rcases hsame with rfl | ⟨x, rfl⟩
    · exact .inl hwriting
    · obtain ⟨op, command, t, hadvanced⟩ := h.advanced hcareful hstep
      cases hadvanced.op_eq.symm.trans hop'
      cases hadvanced.thread.symm.trans hthread
      have hdoes : Does _ _ _ _ _ := hadvanced.does
      obtain ⟨v', hv', hasks⟩ := thread_of_asks hadvanced.asks
      cases hv.symm.trans hv'
      rcases hdoes.begins m rfl hwriting with hbefore | rfl
      · exact .inl (by rw [hasks]; exact hbefore)
      · exact .inr ⟨⟨x, rfl⟩, fun j op w hj hw hchanges =>
          careful_look hcareful hop' hadvanced.asks hw hj hchanges⟩

theorem Orderly.step (hsha : Function.Injective c.sha256) : Orderly c keys q := by
  refine ⟨h.keeps hcareful hstep hsha, ?_, ?_⟩
  · intro n k id op u v hne hop hu hop' hv
    rcases thread_origin hstep hu hop with ⟨rfl, rfl, -⟩ | ⟨hn, u', hu', -⟩
    · rcases thread_origin hstep hv hop' with ⟨-, hk, -⟩ | ⟨hk, v', hv', -⟩
      · exact absurd hk.symm hne
      · exact careful_delete hcareful hv' hk
    · rcases thread_origin hstep hv hop' with ⟨rfl, rfl, -⟩ | ⟨hk, v', hv', -⟩
      · -- the call that begins is not one of this id
        cases op with
        | load _ | list _ => exact some_ne_none _ ∘ Eq.symm
        | delete other =>
          intro heq
          exact careful_delete hcareful hu' hn (congrArg some (some.inj heq).symm)
        | save m =>
          intro heq
          exact careful_save hcareful hu' hn (by rw [some.inj heq])
      · exact h.deletes n k id op u' v' hne hn hu' hk hv'
  · intro n k m m' u v hne hop hu hop' hv hid hwriting
    by_contra hboth
    rw [Bool.not_eq_false] at hboth
    obtain ⟨u', hn, hu', hu''⟩ := h.writing_origin hcareful hstep hop hu hwriting
    obtain ⟨v', hk, hv', hv''⟩ := h.writing_origin hcareful hstep hop' hv hboth
    have hquiet : writing u'.asks = true → writing v'.asks = false :=
      h.writes n k m m' u' v' hne hn hu' hk hv' hid
    rcases hu'' with hu'' | ⟨⟨x, rfl⟩, hlooks⟩
    · rcases hv'' with hv'' | ⟨-, hlooks⟩
      · rw [hquiet hu''] at hv''
        cases hv''
      · rw [hlooks n _ u' hn hu' (congrArg some hid)] at hu''
        cases hu''
    · rcases hv'' with hv'' | ⟨⟨y, hmove⟩, -⟩
      · rw [hlooks k _ v' hk hv' (congrArg some hid.symm)] at hv''
        cases hv''
      · cases hmove
        exact hne rfl

theorem Orderly.shared_or_advanced :
    (q.shared = p.shared ∧ ∀ n x, move ≠ .advance n x) ∨
      ∃ n op command t, (contract c keys).Advanced p n q op command t := by
  cases step_moved hstep with
  | call op | finish hthread | crash => exact .inl ⟨rfl, nofun⟩
  | @advance n x c next s r hthread hserve =>
    obtain ⟨op, command, t, hadvanced⟩ := h.advanced hcareful hstep
    exact .inr ⟨n, op, command, t, hadvanced⟩

theorem Orderly.untouched (hid : Undisturbed p id) : Untouched id p.shared q.shared := by
  rcases h.shared_or_advanced hcareful hstep with ⟨hsame, -⟩ | ⟨n, op, command, t, hadvanced⟩
  · rw [hsame]
    exact .refl ..
  · obtain ⟨u, hu, -⟩ := thread_of_asks hadvanced.asks
    exact Does.others hadvanced.does id (hid n op u hadvanced.op_eq hu)

theorem Orderly.retained (hid : Undeleted p id) : Retained id p.shared q.shared := by
  rcases h.shared_or_advanced hcareful hstep with ⟨hsame, -⟩ | ⟨n, op, command, t, hadvanced⟩
  · rw [hsame]
    exact fun _ => .refl ..
  · obtain ⟨u, hu, -⟩ := thread_of_asks hadvanced.asks
    have hdoes : Does op command t p.shared q.shared := hadvanced.does
    by_cases hchanges : op.changes = some id
    · cases op with
      | load _ => cases hchanges
      | list _ => cases hchanges
      | save m =>
        cases hchanges
        exact hdoes.retained m rfl
      | delete other =>
        cases hchanges
        exact absurd hadvanced.op_eq (hid n u hu)
    · exact fun _ => hdoes.others id hchanges

end Step

section Run

variable (hsha : Function.Injective c.sha256) (h : Orderly c keys p)
  (hcareful : Meets (Pool.step (service c keys)) (fun p move => careful c keys p move = true) p
    moves) (hrun : exec (Pool.step (service c keys)) p moves = some q)

include hsha h hcareful hrun

theorem Orderly.run : Orderly c keys q :=
  exec_invariant (Orderly c keys) (fun _ _ _ hs hcond hstep => hs.step hcond hstep hsha) h hcareful
    hrun

theorem untouched_run (hid : Undisturbed p id)
    (hcalls : ∀ op, .call op ∈ moves → op.changes ≠ some id) : Untouched id p.shared q.shared := by
  have hothers : ∀ move ∈ moves, ∀ op, move = .call op → op.changes ≠ some id := by
    rintro move hmove op rfl
    exact hcalls op hmove
  have hmeets := hcareful.and (Meets.of_forall hothers p)
  have hkept := exec_invariant
    (fun q => Orderly c keys q ∧ Undisturbed q id ∧ Untouched id p.shared q.shared) ?_
    ⟨h, hid, .refl ..⟩ hmeets hrun
  · exact hkept.2.2
  · rintro s move t ⟨hs, hquiet, hsame⟩ ⟨hcond, hcall⟩ hstep
    refine ⟨hs.step hcond hstep hsha, fun k op u hop hu => ?_,
      hsame.trans (hs.untouched hcond hstep hquiet)⟩
    rcases thread_origin hstep hu hop with ⟨hmove, -, -⟩ | ⟨hop', v, hv, -⟩
    · exact hcall op hmove
    · exact hquiet k op v hop' hv

end Run

/-! ### While a manifest is there -/

structure Filed (c : Codec) (keys : KeySource) (m : CheckpointManifest) where
  version : UInt32
  encoded : Bytes
  loaded : CheckpointManifest
  check : checkLoaded c keys m.id (summarize m version) encoded = .ok loaded
  same : contents loaded = contents m

variable {m : CheckpointManifest} {f : Filed c keys m}

def Filed.In (f : Filed c keys m) (s : Cabinet) : Prop :=
  s.index.get m.id = some (summarize m f.version) ∧ s.manifests.get m.id = some f.encoded

theorem holds_iff : Holds c keys m s ↔ ∃ f : Filed c keys m, f.In s := by
  constructor
  · rintro ⟨v, encoded, m', hindex, hfile, hcheck, hsame⟩
    exact ⟨⟨v, encoded, m', hcheck, hsame⟩, hindex, hfile⟩
  · rintro ⟨f, hindex, hfile⟩
    exact ⟨f.version, f.encoded, f.loaded, hindex, hfile, f.check, f.same⟩

theorem Filed.In.retained {t : Cabinet} (h : f.In s) (hretained : Retained m.id s t) : f.In t := by
  have hsame := hretained (by rw [h.1]; exact some_ne_none _)
  exact ⟨hsame.1.trans h.1, hsame.2.trans h.2⟩

theorem Filed.In.contents_eq {m' : CheckpointManifest} (h : f.In s) (h' : Holds c keys m' s)
    (hid : m'.id = m.id) : contents m' = contents m := by
  obtain ⟨v, encoded, loaded, hindex, hfile, hcheck, hsame⟩ := h'
  rw [hid] at hindex hfile hcheck
  have hsummary := some.inj (hindex.symm.trans h.1)
  have hencoded := some.inj (hfile.symm.trans h.2)
  rw [hsummary, hencoded, f.check] at hcheck
  cases hcheck
  exact hsame.symm.trans f.same

/-- What a program answers when each access finds the manifest there. The flag says that an access
failed. -/
def Sees (f : Filed c keys m) (Q : Bool → Answer → Prop) : Caller Answer → Bool → Prop
  | .done a, failed => Q failed a
  | .ask command next, failed => ∀ s x, f.In s →
      Sees f Q (next (serve keys s x command).2) (failed || decide (x.happens ≠ .yes))

theorem Sees.of_forall {Q : Bool → Answer → Prop} (h : ∀ failed a, Q failed a)
    (t : Caller Answer) (failed : Bool) : Sees f Q t failed := by
  induction t generalizing failed with
  | done a => exact h failed a
  | ask command next ih => exact fun s x _ => ih _ _

def Shows (m : CheckpointManifest) : Op → Bool → Answer → Prop
  | .load id, failed, a => id = m.id → failed = false →
      ∃ m', a = .loaded (.ok m') ∧ contents m' = contents m
  | .list workloadID, _, a => workloadID = "" ∨ workloadID = m.workload.id →
      ∃ listed v, a = .listed listed ∧ summarize m v ∈ listed
  | .save _, _, _ => True
  | .delete _, _, _ => True

theorem Filed.valid (f : Filed c keys m) : validateID m.id "checkpoint id" = .ok () := by
  have hloaded := checkLoaded_ok f.check
  exact hloaded.id_eq ▸ (verifyManifest_ok hloaded.verified).id

theorem load_sees (f : Filed c keys m) (id : String) :
    Sees f (Shows m (.load id)) (program c keys (.load id)) false := by
  by_cases hid : id = m.id
  · subst hid
    rw [program_load f.valid]
    intro s x hs
    simp only [serve, hs.1]
    intro t y ht
    by_cases hy : y.happens = .yes
    · simp only [serve, hy, if_true, ht.2, f.check]
      exact fun _ _ => ⟨f.loaded, rfl, f.same⟩
    · simp only [serve, hy, if_false]
      intro _ hfailed
      simp [hy] at hfailed
  · exact Sees.of_forall (fun _ _ h => absurd h hid) ..

theorem list_sees (f : Filed c keys m) (workloadID : String) :
    Sees f (Shows m (.list workloadID)) (program c keys (.list workloadID)) false := by
  intro s x hs hworkload
  refine ⟨_, f.version, rfl, ?_⟩
  have hmem : summarize m f.version ∈ s.index.entries.map Prod.snd :=
    List.mem_map.mpr ⟨_, FileTable.mem_entries_of_get hs.1, rfl⟩
  rw [mem_insertionSort, mem_filter]
  refine ⟨hmem, ?_⟩
  rcases hworkload with rfl | rfl
  · simp
  · simp [summarize]

theorem program_sees (f : Filed c keys m) (op : Op) :
    Sees f (Shows m op) (program c keys op) false := by
  cases op with
  | save _ | delete _ => exact Sees.of_forall (fun _ _ => trivial) ..
  | load id => exact load_sees f id
  | list workloadID => exact list_sees f workloadID

/-- What an answer says, with the events since the manifest is there and the number of the first
call since. -/
def Meant (m : CheckpointManifest) (first : Nat) (events : List (Event Op Answer)) (k : Nat)
    (op : Op) (a : Answer) : Prop :=
  (first ≤ k → ∃ failed, (failed = true → .fault k ∈ events) ∧ Shows m op failed a) ∧
    ∀ m', op = .save m' → a = .saved (.ok ()) → m'.id = m.id → contents m' = contents m

structure Present (f : Filed c keys m) (first : Nat) (events : List (Event Op Answer))
    (q : Calls) : Prop where
  here : f.In q.shared
  undeleted : Undeleted q m.id
  running : ∀ k op u, first ≤ k → q.op k = some op → q.thread k = some u →
    ∃ failed, (failed = true → .fault k ∈ events) ∧ Sees f (Shows m op) u failed
  answered : ∀ k a, .answer k a ∈ events → ∃ op, q.op k = some op ∧ Meant m first events k op a

theorem Meant.mono {more : List (Event Op Answer)} {a : Answer} (h : Meant m first events k op a) :
    Meant m first (events ++ more) k op a := by
  refine ⟨fun hk => ?_, h.2⟩
  obtain ⟨failed, hfault, hshows⟩ := h.1 hk
  exact ⟨failed, fun hf => mem_append_left _ (hfault hf), hshows⟩

theorem Present.update {more : List (Event Op Answer)} (h : Present f first events p)
    (hhere : f.In q.shared) (hundeleted : Undeleted q m.id)
    (hops : ∀ k op, p.op k = some op → q.op k = some op)
    (hrunning : ∀ k op u, first ≤ k → q.op k = some op → q.thread k = some u →
      p.op k = some op ∧ p.thread k = some u ∨
        ∃ failed, (failed = true → .fault k ∈ events ++ more) ∧ Sees f (Shows m op) u failed)
    (hanswers : ∀ k a, .answer k a ∈ more →
      ∃ op, q.op k = some op ∧ Meant m first (events ++ more) k op a) :
    Present f first (events ++ more) q := by
  refine ⟨hhere, hundeleted, fun k op u hk hop hu => ?_, fun k a ha => ?_⟩
  · rcases hrunning k op u hk hop hu with ⟨hop', hu'⟩ | hnew
    · obtain ⟨failed, hfault, hsees⟩ := h.running k op u hk hop' hu'
      exact ⟨failed, fun hf => mem_append_left _ (hfault hf), hsees⟩
    · exact hnew
  · rcases mem_append.mp ha with hold | hnew
    · obtain ⟨op, hop, hmeant⟩ := h.answered k a hold
      exact ⟨op, hops k op hop, hmeant.mono⟩
    · exact hanswers k a hnew

theorem Present.step (h : Orderly c keys p) (hcareful : careful c keys p move = true)
    (hdelete : move ≠ .call (.delete m.id)) (hstep : step (service c keys) p move = some q)
    (hpresent : Present f first events p) :
    ∃ more, q.history = p.history ++ more ∧ Present f first (events ++ more) q := by
  have hhere := hpresent.here.retained (h.retained hcareful hstep hpresent.undeleted)
  have hundeleted : Undeleted q m.id := by
    intro k u hu hop
    rcases thread_origin hstep hu hop with ⟨hmove, -, -⟩ | ⟨hop', v, hv, -⟩
    · exact hdelete hmove
    · exact hpresent.undeleted k v hv hop'
  have hops : ∀ k op, p.op k = some op → q.op k = some op := fun k op => op_step hstep
  have hmoved := step_moved hstep
  cases hmoved with
  | call op =>
    refine ⟨_, rfl, hpresent.update hhere hundeleted hops (fun k op' u _ hop hu => ?_) (by simp)⟩
    rcases thread_origin hstep hu hop with ⟨-, -, rfl⟩ | ⟨hop', v, hv, rfl | ⟨x, hmove⟩⟩
    · exact .inr ⟨false, nofun, program_sees f op'⟩
    · exact .inl ⟨hop', hv⟩
    · cases hmove
  | @advance n x command next s r hthread hserve =>
    have hreply : serve keys p.shared x command = (s, r) := some.inj hserve
    refine ⟨if (service c keys).fails x then [.fault n] else [], by simp only; split <;> simp,
      hpresent.update hhere hundeleted hops (fun k op' u hk hop hu => ?_) (by split <;> simp)⟩
    by_cases hkn : k = n
    · subst hkn
      rw [op_setThread] at hop
      rw [thread_setThread (thread_lt_length hthread)] at hu
      cases hu
      obtain ⟨failed, hfault, hsees⟩ := hpresent.running k op' _ hk hop hthread
      have hnext := hsees p.shared x hpresent.here
      rw [hreply] at hnext
      refine .inr ⟨_, fun hf => ?_, hnext⟩
      rcases Bool.or_eq_true_iff.mp hf with hfailed | hfails
      · exact mem_append_left _ (hfault hfailed)
      · have hx : (service c keys).fails x = true := hfails
        exact mem_append_right _ (by simp [hx])
    · rw [op_setThread] at hop
      rw [thread_setThread_ne hkn] at hu
      exact .inl ⟨hop, hu⟩
  | @finish n a hthread =>
    obtain ⟨op, hop⟩ := op_of_thread hthread
    refine ⟨_, rfl, hpresent.update hhere hundeleted hops (fun k op' u _ hop' hu => ?_) ?_⟩
    · rcases thread_origin hstep hu hop' with ⟨hmove, -⟩ | ⟨hk, v, hv, rfl | ⟨x, hmove⟩⟩
      · cases hmove
      · exact .inl ⟨hk, hv⟩
      · cases hmove
    · intro k b hb
      cases mem_singleton.mp hb
      refine ⟨op, hops n op hop, fun hk => ?_, ?_⟩
      · obtain ⟨failed, hfault, hshows⟩ := hpresent.running n op _ hk hop hthread
        exact ⟨failed, fun hf => mem_append_left _ (hfault hf), hshows⟩
      · rintro m' rfl rfl hid
        exact hpresent.here.contents_eq (h.kept.returns relies_refl hop hthread rfl) hid
  | crash =>
    refine ⟨_, rfl, hpresent.update hhere hundeleted hops (fun k op' u _ _ hu => ?_) (by simp)⟩
    rw [thread_crash] at hu
    cases hu

theorem Present.run (hsha : Function.Injective c.sha256) (h : Orderly c keys p)
    (hpresent : Present f first events p)
    (hcareful : Meets (Pool.step (service c keys)) (fun p move => careful c keys p move = true) p
      moves) (hrun : exec (Pool.step (service c keys)) p moves = some q)
    (hdelete : .call (.delete m.id) ∉ moves) :
    ∃ more, q.history = p.history ++ more ∧ Present f first (events ++ more) q := by
  induction moves generalizing p events with
  | nil =>
    cases hrun
    exact ⟨[], by simp, by simpa using hpresent⟩
  | cons move rest ih =>
    obtain ⟨r, hstep, hrest⟩ := exec_cons.mp hrun
    have hne : move ≠ .call (.delete m.id) := fun heq => hdelete (heq ▸ mem_cons_self ..)
    obtain ⟨more, hhistory, hnext⟩ := hpresent.step h hcareful.1 hne hstep
    obtain ⟨more', hhistory', hlast⟩ := ih (h.step hcareful.1 hstep hsha) hnext
      (hcareful.2 r hstep) hrest fun hmem => hdelete (mem_cons_of_mem _ hmem)
    exact ⟨more ++ more', by rw [hhistory', hhistory, append_assoc],
      by rwa [← append_assoc]⟩

/-! ### A `Delete` that fails -/

/-- Until the `Delete` has removed the entry, its id is as it was. -/
def Unchanged (before : Cabinet) (k : Nat) (id : String) (q : Calls) : Prop :=
  q.op k = some (.delete id) ∧
    ∀ u, q.thread k = some u → removed u = true ∨ Untouched id before q.shared

theorem removed_asks (h : removed u = true) (hasks : u.asks = some command) :
    ∃ id, command = .removeDirectory id := by
  cases u with
  | done a => cases hasks
  | ask asked next =>
    cases hasks
    cases command with
    | removeDirectory id => exact ⟨id, rfl⟩
    | _ => cases h

theorem Unchanged.step (h : Orderly c keys p) (hcareful : careful c keys p move = true)
    (hstep : step (service c keys) p move = some q) (hunchanged : Unchanged before k id p) :
    Unchanged before k id q := by
  obtain ⟨hop, hthread⟩ := hunchanged
  have hop' := op_step hstep hop
  refine ⟨hop', fun u hu => ?_⟩
  rcases thread_origin hstep hu hop' with ⟨-, rfl, -⟩ | ⟨-, v, hv, hsame⟩
  · obtain ⟨call, hcall, -⟩ := map_eq_some_iff.mp hop
    simp at hcall
  · rcases h.shared_or_advanced hcareful hstep with
      ⟨hshared, hmove⟩ | ⟨n, op, command, t, hadvanced⟩
    · rcases hsame with rfl | ⟨x, rfl⟩
      · rw [hshared]
        exact hthread v hv
      · exact absurd rfl (hmove k x)
    · by_cases hk : k = n
      · subst hk
        cases hadvanced.op_eq.symm.trans hop
        cases hadvanced.thread.symm.trans hu
        have hdoes : Does _ _ _ _ _ := hadvanced.does
        rcases hdoes.deletes id rfl with hremoved | ⟨hshared, hcommand⟩
        · exact .inl hremoved
        · rw [hshared]
          obtain ⟨w, hw, hasks⟩ := thread_of_asks hadvanced.asks
          cases hv.symm.trans hw
          rcases hthread v hv with hremoved | huntouched
          · obtain ⟨other, rfl⟩ := removed_asks hremoved hasks
            exact absurd rfl (hcommand other)
          · exact .inr huntouched
      · rw [hadvanced.others k hk] at hu
        rcases hthread u hu with hremoved | huntouched
        · exact .inl hremoved
        · exact .inr (huntouched.trans (h.fits hadvanced hk hop hu))

theorem Unchanged.ends (hcareful : careful c keys p move = true)
    (hstep : Pool.step (service c keys) p move = some q) (hunchanged : Unchanged before k id p)
    (hrunning : p.thread k = some u) (hended : q.thread k = none)
    (hfailed : .answer k (.deleted (.ok ())) ∉ q.history) : Untouched id before q.shared := by
  cases Pool.step_moved hstep with
  | call op =>
    have hne : k ≠ p.calls.length := (Pool.thread_lt_length hrunning).ne
    rw [Pool.thread_append_ne _ hne, hrunning] at hended
    cases hended
  | @advance n x command next s r hthread hserve =>
    by_cases hk : k = n
    · rw [hk, Pool.thread_setThread (Pool.thread_lt_length hthread)] at hended
      cases hended
    · rw [Pool.thread_setThread_ne hk, hrunning] at hended
      cases hended
  | @finish n a hthread =>
    by_cases hk : k = n
    · subst hk
      cases hrunning.symm.trans hthread
      rcases hunchanged.2 _ hthread with hremoved | huntouched
      · cases a with
        | deleted result =>
          cases result with
          | ok _ => exact absurd (by simp) hfailed
          | error err => cases hremoved
        | saved _ | loaded _ | listed _ => cases hremoved
      · exact huntouched
    · rw [Pool.thread_setThread_ne hk, hrunning] at hended
      cases hended
  | crash =>
    rcases hunchanged.2 u hrunning with hremoved | huntouched
    · rw [careful_crash hcareful hrunning] at hremoved
      cases hremoved
    · exact huntouched

theorem delete_failed (hsha : Function.Injective c.sha256) (h : Orderly c keys p)
    {during : List (Move Op Choice)} {last : Move Op Choice} {r : Calls}
    (hcareful : Meets (step (service c keys)) (fun p move => careful c keys p move = true) p
      (.call (.delete id) :: (during ++ [last])))
    (hr : exec (step (service c keys)) p (.call (.delete id) :: during) = some r)
    (hlast : step (service c keys) r last = some q) (hrunning : r.thread p.calls.length ≠ none)
    (hended : q.thread p.calls.length = none)
    (hfailed : .answer p.calls.length (.deleted (.ok ())) ∉ q.history) :
    Untouched id p.shared q.shared := by
  obtain ⟨p₁, hcall, hduring⟩ := exec_cons.mp hr
  obtain ⟨hfirst, hcond, -⟩ := (hcareful.2 p₁ hcall).append hduring
  have hbegins : Unchanged p.shared p.calls.length id p₁ := by
    cases hcall
    exact ⟨op_append_length _, fun u _ => .inr (.refl ..)⟩
  have hkept := exec_invariant
    (fun q => Orderly c keys q ∧ Unchanged p.shared p.calls.length id q)
    (fun _ _ _ hs hcond hstep => ⟨hs.1.step hcond hstep hsha, hs.2.step hs.1 hcond hstep⟩)
    ⟨h.step hcareful.1 hcall hsha, hbegins⟩ hfirst hduring
  obtain ⟨u, hu⟩ := ne_none_iff_exists'.mp hrunning
  exact hkept.2.ends hcond hlast hu hended hfailed

theorem delete_alone (hx : x.happens = .yes) (hinv : Consistent c keys s)
    (hindex : s.index.get id ≠ none) :
    (program c keys (.delete id)).alone (fun s => serve keys s x) s =
      (⟨s.index.erase id, s.manifests.erase id⟩, .deleted (.ok ())) := by
  obtain ⟨summary, hget⟩ := ne_none_iff_exists'.mp hindex
  obtain ⟨m, v, encoded, -, -, hcheck⟩ := hinv id summary hget
  have hloaded := checkLoaded_ok hcheck
  have hid := (verifyManifest_ok hloaded.verified).id
  rw [hloaded.id_eq] at hid
  rw [program_delete hid]
  simp [serve, hget, hx, report]

theorem save_alone_holds (hx : x.happens = .yes) (hinv : Consistent c keys s)
    {m : CheckpointManifest} (hverify : verifyManifest c m = .ok ()) {key : Bytes}
    (hkey : keys m.workload.id x.version = .ok key) {e : EncryptedManifest}
    (hseal : sealManifest c ⟨x.version, key, x.nonce⟩ m = .ok e) (hversion : x.version ≠ 0)
    (hsize : (c.encodeEnvelope e).length ≤ maxEncryptedManifestBytes)
    (hfree : ∀ m' encoded, stored c keys s m.id = .ok (m', encoded) → contents m' = contents m) :
    ((program c keys (.save m)).alone (fun s => serve keys s x) s).2 = .saved (.ok ()) ∧
      Holds c keys m ((program c keys (.save m)).alone (fun s => serve keys s x) s).1 := by
  have hid := (verifyManifest_ok hverify).id
  have halone := save_alone (s := s) hx hverify hkey hseal
  have hprogram : (program c keys (.save m)).alone (fun s => serve keys s x) s =
      (((save c keys m).alone (fun s => serve keys s x) s).1,
        .saved ((save c keys m).alone (fun s => serve keys s x) s).2) := by
    simp only [program]
    rw [Thread.alone_bind]
    rfl
  rw [hprogram, halone]
  cases hget : s.index.get m.id with
  | none =>
    have hstored : stored c keys s m.id = .error .notFound := by
      simp [stored, hid, hget]
    rw [hstored]
    simp only [absent, if_true]
    have hloaded := checkLoaded_seal (k := ⟨x.version, key, x.nonce⟩) hseal hverify hkey hversion
      hsize
    rw [(openEnvelope_sealManifest hseal).2.2.2.1] at hloaded
    exact ⟨trivial, x.version, _, m, by simp, by simp, hloaded, rfl⟩
  | some summary =>
    obtain ⟨m', v, encoded, rfl, hfile, hcheck⟩ := hinv m.id summary hget
    have hstored : stored c keys s m.id = .ok (m', encoded) := by
      simp [stored, hid, hget, hfile, hcheck, Except.map]
    have hcontents := hfree m' encoded hstored
    have hhash : m'.manifestSHA256 = m.manifestSHA256 := by
      rw [← (verifyManifest_ok hverify).digest,
        ← (verifyManifest_ok (checkLoaded_ok hcheck).verified).digest, manifestDigest,
        manifestDigest, hcontents]
    rw [hstored]
    simp only [hhash, if_true]
    refine ⟨trivial, v, encoded, m', ?_, hfile, ?_, hcontents⟩
    · rw [hget, summarize_congr hcontents hhash]
    · rw [← summarize_congr hcontents hhash]
      exact hcheck

end Runs

/-! ### The repository as a map -/

section Map

variable (c : Codec) (keys : KeySource)

def undisturbed (op : Op) (x : Choice) (j : Nat) (q : Calls) : List (Move Op Choice) :=
  .call op :: (List.replicate j (.advance q.calls.length x) ++ [.finish q.calls.length])

/-- What a `Save` of `m` that returned success in `p` promises: `Load` returns the manifest and
`List` shows it, now and in every call since, and no other contents are saved under the id. -/
structure Durable (m : CheckpointManifest) (p : Calls) (events : List (Event Op Answer))
    (q : Calls) : Prop where
  returns : ∀ x : Choice, x.happens = .yes → ∃ j r m',
    exec (Pool.step (service c keys)) q (undisturbed (.load m.id) x j q) = some r ∧
      .answer q.calls.length (.loaded (.ok m')) ∈ r.history ∧ contents m' = contents m
  loads : ∀ k a, p.calls.length ≤ k → q.op k = some (.load m.id) → .answer k a ∈ events →
    .fault k ∉ events → ∃ m', a = .loaded (.ok m') ∧ contents m' = contents m
  lists : ∀ k workloadID a, p.calls.length ≤ k → q.op k = some (.list workloadID) →
    .answer k a ∈ events → workloadID = "" ∨ workloadID = m.workload.id →
    ∃ listed v, a = .listed listed ∧ summarize m v ∈ listed
  saves : ∀ k m', q.op k = some (.save m') → .answer k (.saved (.ok ())) ∈ events →
    m'.id = m.id → contents m' = contents m

/-- The repository is a durable immutable map in the run. -/
structure ImmutableMap (moves : List (Move Op Choice)) (q : Calls) : Prop where
  durable : ∀ before n during r p m, moves = before ++ .finish n :: during →
    exec (Pool.step (service c keys)) start before = some r →
    Pool.step (service c keys) r (.finish n) = some p → r.op n = some (.save m) →
    r.thread n = some (.done (.saved (.ok ()))) → .call (.delete m.id) ∉ during →
    ∃ events, q.history = p.history ++ events ∧ Durable c keys m p events q
  /-- Calls of other ids leave an id alone, however they end. -/
  others : ∀ before during p id, moves = before ++ during →
    exec (Pool.step (service c keys)) start before = some p → Undisturbed p id →
    (∀ op, .call op ∈ during → op.changes ≠ some id) → Untouched id p.shared q.shared
  /-- A `Save` succeeds unless other contents are there under its id. -/
  saves : ∀ m x key e, verifyManifest c m = .ok () → x.happens = .yes →
    keys m.workload.id x.version = .ok key →
    sealManifest c ⟨x.version, key, x.nonce⟩ m = .ok e → x.version ≠ 0 →
    (c.encodeEnvelope e).length ≤ maxEncryptedManifestBytes →
    (∀ m' encoded, stored c keys q.shared m.id = .ok (m', encoded) → contents m' = contents m) →
    ∃ j r, exec (Pool.step (service c keys)) q (undisturbed (.save m) x j q) = some r ∧
      .answer q.calls.length (.saved (.ok ())) ∈ r.history ∧ Holds c keys m r.shared
  /-- A `Delete` without success leaves its id as it found it. -/
  failed : ∀ before id during last p r,
    moves = before ++ .call (.delete id) :: (during ++ [last]) →
    exec (Pool.step (service c keys)) start before = some p →
    exec (Pool.step (service c keys)) start (before ++ .call (.delete id) :: during) = some r →
    r.thread p.calls.length ≠ none → q.thread p.calls.length = none →
    .answer p.calls.length (.deleted (.ok ())) ∉ q.history → Untouched id p.shared q.shared
  /-- A `Delete` of an id that is there succeeds. -/
  deletes : ∀ id x, x.happens = .yes → q.shared.index.get id ≠ none →
    ∃ j r, exec (Pool.step (service c keys)) q (undisturbed (.delete id) x j q) = some r ∧
      .answer q.calls.length (.deleted (.ok ())) ∈ r.history ∧
      r.shared.index.get id = none ∧ r.shared.manifests.get id = none

theorem exec_undisturbed (op : Op) {x : Choice} (hx : x.happens = .yes) (q : Calls) :
    ∃ j r, exec (step (service c keys)) q (undisturbed op x j q) = some r ∧
      r.shared = ((program c keys op).alone (fun s => serve keys s x) q.shared).1 ∧
      .answer q.calls.length ((program c keys op).alone (fun s => serve keys s x) q.shared).2 ∈
        r.history := by
  have hserve : ∀ s n command, (service c keys).serve s n command x =
      some (serve keys s x command) := fun _ _ _ => rfl
  obtain ⟨j, r, hrun, hshared, hhistory⟩ :=
    exec_call_alone hserve (by simp [service, hx]) q op
  refine ⟨j, r, hrun, hshared, ?_⟩
  rw [hhistory]
  simp [service]

variable {c keys} {p q r : Calls} {m : CheckpointManifest}

theorem Present.durable {f : Filed c keys m} (h : Present f p.calls.length events q) :
    Durable c keys m p events q where
  returns x hx := by
    obtain ⟨j, r, hrun, -, hanswer⟩ := exec_undisturbed c keys (.load m.id) hx q
    refine ⟨j, r, f.loaded, hrun, ?_, f.same⟩
    rw [program_load f.valid] at hanswer
    simpa [serve, h.here.1, h.here.2, hx, f.check] using hanswer
  loads k a hk hop ha hfault := by
    obtain ⟨op, hop', hmeant, -⟩ := h.answered k a ha
    cases hop'.symm.trans hop
    obtain ⟨failed, hfailed, hshows⟩ := hmeant hk
    exact hshows rfl (Bool.eq_false_iff.mpr fun heq => hfault (hfailed heq))
  lists k workloadID a hk hop ha hworkload := by
    obtain ⟨op, hop', hmeant, -⟩ := h.answered k a ha
    cases hop'.symm.trans hop
    obtain ⟨failed, -, hshows⟩ := hmeant hk
    exact hshows hworkload
  saves k m' hop ha hid := by
    obtain ⟨op, hop', -, hsaves⟩ := h.answered k _ ha
    cases hop'.symm.trans hop
    exact hsaves m' rfl rfl hid

theorem Orderly.present (h : Orderly c keys r) {n : Nat} (hop : r.op n = some (.save m))
    (hthread : r.thread n = some (.done (.saved (.ok ()))))
    (hstep : Pool.step (service c keys) r (.finish n) = some p) :
    ∃ f : Filed c keys m, Present f p.calls.length [] p := by
  obtain ⟨f, hf⟩ := holds_iff.mp (h.kept.returns relies_refl hop hthread rfl)
  have hundeleted : Undeleted p m.id := by
    intro k u hu hdelete
    rcases Pool.thread_origin hstep hu hdelete with ⟨hmove, -⟩ | ⟨hdelete', v, hv, -⟩
    · cases hmove
    · have hne : k ≠ n := by
        rintro rfl
        cases hdelete'.symm.trans hop
      exact h.deletes k n m.id _ v _ hne hdelete' hv hop hthread rfl
  have hnew : ∀ k u, p.calls.length ≤ k → p.thread k ≠ some u := fun k u hk hu =>
    absurd (Pool.thread_lt_length hu) (by omega)
  refine ⟨f, ?_, hundeleted, fun k op u hk _ hu => absurd hu (hnew k u hk), by simp⟩
  cases Pool.step_moved hstep with
  | finish _ => exact hf

theorem repository_immutable_map (hsha : Function.Injective c.sha256)
    {moves : List (Move Op Choice)}
    (hcareful : Meets (Pool.step (service c keys)) (fun p move => careful c keys p move = true)
      start moves)
    (hrun : exec (Pool.step (service c keys)) start moves = some q) :
    ImmutableMap c keys moves q := by
  have horderly : Orderly c keys q := Orderly.initial.run hsha hcareful hrun
  have hinv : Consistent c keys q.shared := horderly.kept.inv
  constructor
  · rintro before n during r p m rfl hbefore hstep hop hthread hdelete
    obtain ⟨hfirst, hcond, hrest⟩ := hcareful.append hbefore
    obtain ⟨r', hr', hlater⟩ := exec_append.mp hrun
    cases hbefore.symm.trans hr'
    obtain ⟨p', hp', hduring⟩ := exec_cons.mp hlater
    cases hstep.symm.trans hp'
    have hr := Orderly.initial.run hsha hfirst hbefore
    obtain ⟨f, hpresent⟩ := hr.present hop hthread hstep
    obtain ⟨more, hhistory, hlast⟩ := hpresent.run hsha (hr.step hcond hstep hsha) (hrest p hstep)
      hduring hdelete
    exact ⟨more, hhistory, hlast.durable⟩
  · rintro before during p id rfl hbefore hid hcalls
    obtain ⟨hfirst, hlast⟩ := hcareful.append hbefore
    obtain ⟨p', hp', hduring⟩ := exec_append.mp hrun
    cases hbefore.symm.trans hp'
    exact untouched_run hsha (Orderly.initial.run hsha hfirst hbefore) hlast hduring hid hcalls
  · intro m x key e hverify hx hkey hseal hversion hsize hfree
    obtain ⟨j, r, hexec, hshared, hanswer⟩ := exec_undisturbed c keys (.save m) hx q
    obtain ⟨hsaved, hholds⟩ := save_alone_holds hx hinv hverify hkey hseal hversion hsize hfree
    rw [hsaved] at hanswer
    exact ⟨j, r, hexec, hanswer, hshared ▸ hholds⟩
  · rintro before id during last p r rfl hbefore hr hrunning hended hfailed
    obtain ⟨hfirst, hlater⟩ := hcareful.append hbefore
    obtain ⟨p', hp', hr'⟩ := exec_append.mp hr
    cases hbefore.symm.trans hp'
    have hlast : Pool.step (service c keys) r last = some q := by
      rw [← cons_append, ← append_assoc] at hrun
      obtain ⟨r', hr'', hstep⟩ := exec_append.mp hrun
      cases hr.symm.trans hr''
      obtain ⟨q', hq', hnil⟩ := exec_cons.mp hstep
      cases hnil
      exact hq'
    exact delete_failed hsha (Orderly.initial.run hsha hfirst hbefore) hlater hr' hlast hrunning
      hended hfailed
  · intro id x hx hindex
    obtain ⟨j, r, hexec, hshared, hanswer⟩ :=
      exec_undisturbed c keys (.delete id) hx q
    rw [delete_alone hx hinv hindex] at hanswer hshared
    refine ⟨j, r, hexec, hanswer, ?_, ?_⟩
    · simp [hshared, FileTable.get_erase]
    · simp [hshared, FileTable.get_erase]

end Map

namespace Sample

def choice (happens : Happens) (byte : UInt8) : Choice := ⟨happens, 1, nonce byte⟩

def overlapping : List (Move Op Choice) :=
  [.call (.save full), .call (.save bare), .advance 0 (choice .yes 1), .advance 0 (choice .yes 1),
    .advance 1 (choice .yes 2), .advance 1 (choice .yes 2), .advance 0 (choice .yes 1),
    .advance 0 (choice .yes 1), .finish 0, .advance 1 (choice .yes 2), .advance 1 (choice .yes 2),
    .finish 1, .call (.load "c"), .advance 2 (choice .yes 1), .advance 2 (choice .yes 1), .finish 2]

def undone : List (Move Op Choice) :=
  [.call (.save full), .call (.save full), .advance 0 (choice .yes 1), .advance 0 (choice .yes 1),
    .advance 1 (choice .yes 2), .advance 1 (choice .yes 2), .advance 0 (choice .yes 1),
    .advance 0 (choice .yes 1), .finish 0, .advance 1 (choice .yes 2), .advance 1 (choice .fails 2),
    .advance 1 (choice .yes 2), .finish 1, .call (.load "c"), .advance 2 (choice .yes 1),
    .advance 2 (choice .yes 1), .finish 2]

def interrupted : List (Move Op Choice) :=
  [.call (.save full), .advance 0 (choice .yes 1), .advance 0 (choice .yes 1),
    .advance 0 (choice .yes 1), .advance 0 (choice .yes 1), .finish 0, .call (.delete "c"),
    .advance 1 (choice .yes 1), .advance 1 (choice .yes 1), .crash, .call (.delete "c"),
    .advance 2 (choice .yes 1), .finish 2]

def careful : List (Move Op Choice) :=
  [.call (.save full), .call (.save bare), .advance 0 (choice .yes 1), .advance 0 (choice .yes 1),
    .advance 0 (choice .yes 1), .advance 0 (choice .yes 1), .finish 0, .advance 1 (choice .yes 2),
    .call (.load "c"), .advance 1 (choice .yes 2), .advance 2 (choice .yes 1),
    .advance 1 (choice .yes 2), .advance 2 (choice .yes 1), .finish 1, .finish 2]

end Sample

theorem repository_immutable_map_sample :
    ∃ q, exec (Pool.step (service Sample.codec sampleKeys)) start Sample.careful = some q ∧
      .answer 0 (.saved (.ok ())) ∈ q.history ∧
      ImmutableMap Sample.codec sampleKeys Sample.careful q := by
  exact exists_some_and (by decide +kernel) fun _ hrun _ =>
    repository_immutable_map Sample.sha256_injective (by decide +kernel) hrun

/-- Success is reported for two contents of one id; a failing `Save` takes away the file of one that
has succeeded; an interrupted `Delete` cannot be repeated. -/
theorem repository_not_immutable_map :
    contents Sample.bare ≠ contents Sample.full ∧
    (∃ q, exec (Pool.step (service Sample.codec sampleKeys)) start Sample.overlapping = some q ∧
      q.history = [.invoke 0 (.save Sample.full), .invoke 1 (.save Sample.bare),
        .answer 0 (.saved (.ok ())), .answer 1 (.saved (.ok ())), .invoke 2 (.load "c"),
        .answer 2 (.loaded (.ok Sample.bare))]) ∧
    (∃ q, exec (Pool.step (service Sample.codec sampleKeys)) start Sample.undone = some q ∧
      q.history = [.invoke 0 (.save Sample.full), .invoke 1 (.save Sample.full),
        .answer 0 (.saved (.ok ())), .fault 1,
        .answer 1 (.saved (.error (.other "append index entry"))), .invoke 2 (.load "c"),
        .answer 2 (.loaded (.error (.notExist "open manifest.enc.json")))]) ∧
    ∃ q, exec (Pool.step (service Sample.codec sampleKeys)) start Sample.interrupted = some q ∧
      q.history = [.invoke 0 (.save Sample.full), .answer 0 (.saved (.ok ())),
        .invoke 1 (.delete "c"), .crash, .invoke 2 (.delete "c"),
        .answer 2 (.deleted (.error .notFound))] ∧ q.shared.manifests.get "c" ≠ none := by
  decide +kernel

end Shiftgate.Checkpoint.Repository
