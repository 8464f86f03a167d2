import Shiftgate.Transfer.Server

/-! Everything that one step of the destination can do, said once: `StartMove` lists what the first
step of a request does, `PointMove` what its later steps do to the destination and to the request's
point, and `Change` the steps of the destination as a whole. -/

namespace Shiftgate.Transfer

open Checkpoint Option Destination

variable {d d' : Destination} {task : Task} {work : Work} {point : Point}

theorem writeBack_ok {s' : Session} (h : d.writeBack task = .ok s') :
    ∃ s, d.target task = .ok s ∧ task.point.change s = .ok s' ∧ d.session = some s := by
  unfold writeBack at h
  unfold target
  split at h
  · rename_i hcleanup
    obtain ⟨s, hg, hchange⟩ := updateCleanup_ok h
    exact ⟨s, by rw [if_pos hcleanup, hg], hchange, (getForCleanup_ok hg).1⟩
  · rename_i hcleanup
    obtain ⟨s, hg, hchange⟩ := updateSession_ok h
    exact ⟨s, by rw [if_neg hcleanup, hg], hchange, (getSession_ok hg).1⟩

namespace Point

def ingests : Point → Bool
  | .importKey _ | .importManifest _ | .chunkGate _ | .chunkImport .. | .verify => true
  | _ => false

def writes : Point → Bool
  | .prepared _ | .prepareFailed | .committed | .rolledBack _ | .hold _ => true
  | p => p.ingests

theorem writes_of_ingests {p : Point} (h : p.ingests) : p.writes := by
  cases p <;> first | rfl | cases h

def uploads : Point → Bool
  | .chunkImport .. => true
  | _ => false

end Point

inductive PointMove (d : Destination) (task : Task) (work : Work) : Destination → Point → Prop
  | wrote {s s' : Session} {p' : Point} (hwrites : task.point.writes)
      (hfound : d.target task = .ok s) (hchange : task.point.change s = .ok s')
      (hs : d.session = some s)
      (hp : p' = task.point.afterWrite d.session (.ok s') ∨
        task.point.uploads ∧ ∃ status code, p' = .done (.error status code)) :
      PointMove d task work (d.setSession s') p'
  | refused {err : UpdateError Refusal} (hwrites : task.point.writes)
      (herr : d.writeBack task = .error err) :
      PointMove d task work d (task.point.afterWrite d.session (.error err))
  | failed {status : Nat} {code : String} (hp : task.point.ingests) :
      PointMove d task work d (.done (.error status code))
  | stored {size : Int64} {s : Session} (hp : task.point = .chunkImport size s) :
      PointMove d task work d (.done (.session s))
  | prepare {p : PreparePoint} {r : Restores} {next : PrepareNext}
      (hp : task.point = .preparing p)
      (hs : prepareStep d.restores (work = .ok) p = some (r, next)) :
      PointMove d task work (d.setRestores r) (afterPrepare next)
  | commit {p : CommitPoint} (hp : task.point = .committing p) :
      PointMove d task work (d.setRestores (commitStep d.restores (work = .ok) p).1)
        (afterCommit (commitStep d.restores (work = .ok) p).2)
  | rollback {caller : RollbackCaller} {p : RollbackPoint} (hp : task.point = .rolling caller p) :
      PointMove d task work (d.setRestores (rollbackStep d.restores (work = .ok) p).1)
        (afterRollback caller p.id (rollbackStep d.restores (work = .ok) p).2)

theorem write_move (hwrites : task.point.writes) :
    PointMove d task work (d.write task).1 (d.write task).2 := by
  unfold write
  split
  · rename_i s' hok
    obtain ⟨s, hfound, hchange, hs⟩ := writeBack_ok hok
    exact .wrote hwrites hfound hchange hs (.inl rfl)
  · rename_i err herr
    exact .refused hwrites herr

theorem advancePoint_move (h : d.advancePoint task work = some (d', point)) :
    PointMove d task work d' point := by
  have writes : ∀ {task}, d.write task = (d', point) → task.point.writes →
      PointMove d task work d' point := by
    intro task hw hwrites
    have hmove : PointMove d task work (d.write task).1 (d.write task).2 := write_move hwrites
    rwa [hw] at hmove
  obtain ⟨source, p⟩ := task
  cases p with
  | importKey | importManifest | chunkGate | verify =>
    simp only [advancePoint] at h
    split at h
    · exact writes (some.inj h) rfl
    · cases h
      exact .failed rfl
  | chunkImport storedSize session =>
    cases work with
    | ok =>
      cases h
      exact .stored rfl
    | fail =>
      cases h
      unfold write
      split
      · rename_i s' hok
        obtain ⟨s, hfound, hchange, hs⟩ := writeBack_ok hok
        exact .wrote rfl hfound hchange hs (.inr ⟨rfl, _, _, rfl⟩)
      · exact .failed rfl
    | duplicate =>
      simp only [advancePoint] at h
      split at h
      · rename_i updated hok
        cases h
        obtain ⟨s, hfound, hchange, hs⟩ := writeBack_ok hok
        exact .wrote rfl hfound hchange hs (.inl rfl)
      · cases h
        exact .stored rfl
  | preparing p =>
    obtain ⟨⟨restores, next⟩, hs, hd⟩ := map_eq_some_iff.mp h
    cases hd
    exact .prepare rfl hs
  | committing p =>
    cases h
    exact .commit rfl
  | rolling caller p =>
    cases h
    exact .rollback rfl
  | prepared | prepareFailed | committed | rolledBack | hold =>
    exact writes (some.inj h) rfl
  | done => cases h

def Destination.setPoint (d : Destination) (i : Nat) (task : Task) (point : Point) : Destination :=
  { d with tasks := d.tasks.set i { task with point } }

theorem PointMove.tasks (h : PointMove d task work d' point) : d'.tasks = d.tasks := by
  cases h <;> rfl

theorem PointMove.phase (h : PointMove d task work d' point) : d'.phase = d.phase := by
  cases h <;> rfl

theorem advance_move {i : Nat} (h : d.advance i work = some d') :
    ∃ task e p', d.tasks[i]? = some task ∧ PointMove d task work e p' ∧
      d' = e.setPoint i task p' := by
  obtain ⟨task, hi, h⟩ := bind_eq_some_iff.mp h
  obtain ⟨⟨e, p'⟩, hpoint, hd⟩ := map_eq_some_iff.mp h
  have hmove := advancePoint_move hpoint
  refine ⟨task, e, p', hi, hmove, ?_⟩
  rw [← hd, setPoint, hmove.tasks]

inductive StartMove (d : Destination) (source : String) : Request → Destination → Point → Prop
  | refused {r : Reservation} {status : Nat} {code : String} :
      StartMove d source (.reserve r) d (.done (.error status code))
  | held {r : Reservation} {s : Session} (hs : d.session = some s) :
      StartMove d source (.reserve r) d (.done (.session s))
  | reserved {r : Reservation} {s : Session} (hnone : d.session = none)
      (hsource : s.sourceMachineID = source) (hstate : s.state = .reserved)
      (hid : s.restoreID = none) :
      StartMove d source (.reserve r) (d.setSession s) (.done (.session s))
  | request {request : Request} (hr : ∀ r, request ≠ .reserve r) :
      StartMove d source request d (d.startPoint source request)

inductive Starts (d : Destination) : Request → Point → Prop
  | refused {request : Request} {status : Nat} {code : String} :
      Starts d request (.done (.error status code))
  | answered {request : Request} {s : Session} (hs : d.session = some s)
      (hcommit : request = .commit → s.state = .committed)
      (hother : request ≠ .verify ∧ request ≠ .rollback) : Starts d request (.done (.session s))
  | importKey {workloadID : String} {version : UInt32} :
      Starts d (.importKey workloadID version) (.importKey version)
  | importManifest {m : Manifest} : Starts d (.importManifest m) (.importManifest m.id)
  | importChunk {version : UInt32} {size : Int64} :
      Starts d (.importChunk version size) (.chunkGate size)
  | verify : Starts d .verify .verify
  | restored {id : Nat} : Starts d .restore (.done (.restore id))
  | restore {s : Session} (hs : d.session = some s) (hstate : s.state = .verified) :
      Starts d .restore (.preparing .admission)
  | commit {s : Session} {id : Nat} (hs : d.session = some s) (hid : s.restoreID = some id) :
      Starts d .commit (.committing (.read id))
  | forget : Starts d .rollback (.rolledBack none)
  | rollback {s : Session} {id : Nat} (hs : d.session = some s) (hid : s.restoreID = some id) :
      Starts d .rollback (.rolling .handler (.read id))
  | hold {input : HoldRequest} : Starts d (.hold input) (.hold input)

theorem startPoint_starts (d : Destination) (source : String) (request : Request) :
    Starts d request (d.startPoint source request) := by
  cases request with
  | reserve => exact .refused
  | importKey | importManifest | importChunk | verify =>
    simp only [startPoint, admitted]
    repeat' split
    all_goals first | exact .refused | constructor
  | restore =>
    simp only [startPoint]
    split
    · exact .refused
    · rename_i s hget
      split
      · exact .restored
      · split
        · exact .refused
        · rename_i hrequire
          split
          · exact .restore (getSession_ok hget).1 (by simpa using requireState_ok hrequire)
          · exact .refused
  | commit =>
    simp only [startPoint]
    split
    · exact .refused
    · rename_i s hget
      split
      · rename_i hstate
        exact .answered (getSession_ok hget).1 (fun _ => hstate) ⟨nofun, nofun⟩
      · split
        · exact .refused
        · exact .refused
        · exact .commit (getSession_ok hget).1 ‹_›
  | rollback =>
    simp only [startPoint]
    split
    · exact .refused
    · rename_i s hget
      split
      · exact .refused
      · split
        · exact .forget
        · exact .rollback (getForCleanup_ok hget).1 ‹_›
  | hold input =>
    simp only [startPoint]
    repeat' split
    all_goals first
      | exact .refused
      | exact .hold
      | exact .answered (getSession_ok ‹_›).1 nofun ⟨nofun, nofun⟩
  | get =>
    simp only [startPoint]
    split
    · exact .refused
    · exact .answered (getSession_ok ‹_›).1 nofun ⟨nofun, nofun⟩
  | getCleanup =>
    simp only [startPoint]
    split
    · exact .refused
    · exact .answered (getForCleanup_ok ‹_›).1 nofun ⟨nofun, nofun⟩

theorem StartMove.tasks {source : String} {request : Request}
    (h : StartMove d source request d' point) : d'.tasks = d.tasks := by
  cases h <;> rfl

theorem reserve_ok {stored stored' : Option Session} {now : Nat} {r : Reservation}
    {session : Session} (h : reserve stored now r = .ok (session, stored')) :
    (stored' = stored ∧ stored = some session) ∨
      (stored = none ∧ stored' = some session ∧ session.sourceMachineID = r.sourceMachineID ∧
        session.state = .reserved ∧ session.restoreID = none) := by
  unfold reserve at h
  split at h
  · cases h
  · split at h
    · cases h
    · split at h
      · split at h
        · cases h
        · split at h
          · cases h
          · split at h <;> cases h
            exact .inl ⟨rfl, rfl⟩
      · cases h
        exact .inr ⟨rfl, rfl, rfl, rfl, rfl⟩

theorem start_move (d : Destination) (source : String) (request : Request) :
    ∃ e p, StartMove d source request e p ∧ d.start source request = e.addTask source p := by
  cases request with
  | reserve r =>
    simp only [start]
    split
    · exact ⟨_, _, .refused, rfl⟩
    · rename_i hsource
      split
      · exact ⟨_, _, .refused, rfl⟩
      · split
        · exact ⟨_, _, .refused, rfl⟩
        · rename_i session stored hr
          rcases reserve_ok hr with ⟨rfl, hs⟩ | ⟨hnone, rfl, hs, hstate, hid⟩
          · exact ⟨_, _, .held hs, rfl⟩
          · exact ⟨_, _, .reserved hnone (hs.trans (not_not.mp hsource)) hstate hid, rfl⟩
  | _ => exact ⟨_, _, .request nofun, rfl⟩

theorem reapExpired_cases (d : Destination) :
    d.reapExpired = { d with session := reap d.session d.now } ∨
    ∃ s id, d.session = some s ∧ sessionExpired s d.now = true ∧ s.restoreID = some id ∧
      d.reapExpired = { d with session := reap d.session d.now }.addTask s.sourceMachineID
        (.rolling .reaper (.read id)) := by
  simp only [reapExpired]
  split
  · exact .inl rfl
  · rename_i s hs
    split
    · rename_i id hexpired hid
      exact .inr ⟨s, id, hs, hexpired, hid, rfl⟩
    · exact .inl rfl

inductive Change (d : Destination) : Action → Destination → Prop
  | start {source : String} {request : Request} {e : Destination} {p : Point} (hup : d.phase = .up)
      (hm : StartMove d source request e p) : Change d (.start source request) (e.addTask source p)
  | advance {i : Nat} {work : Work} {task : Task} {e : Destination} {p' : Point}
      (hup : d.phase ≠ .down) (hi : d.tasks[i]? = some task) (hm : PointMove d task work e p') :
      Change d (.advance i work) (e.setPoint i task p')
  | reap (hup : d.phase = .up) : Change d .reapExpired d.reapExpired
  | tick : Change d .tick { d with now := d.now + 1 }
  | processExit : Change d .processExit (d.setRestores d.restores.stopProcess)
  | crash : Change d .crash d.crash
  | recover {id : Nat} {outcome : RecoverOutcome} (hdown : d.phase = .down) :
      Change d (.recover id outcome) (d.setRestores (recoverRecord d.restores id outcome))
  | boot (hdown : d.phase = .down) : Change d .boot { d.reapExpired with phase := .booting }
  | serve : Change d .serve { d with phase := .up }

theorem step_change {a : Action} (h : d.step a = some d') : Change d a d' := by
  cases a with
  | start source request =>
    simp only [step, ite_none_right_eq_some] at h
    obtain ⟨hup, hd⟩ := h
    obtain ⟨e, p, hm, heq⟩ := start_move d source request
    rw [heq] at hd
    cases hd
    exact .start hup hm
  | advance i work =>
    simp only [step, ite_none_left_eq_some] at h
    obtain ⟨task, e, p', hi, hm, rfl⟩ := advance_move h.2
    exact .advance h.1 hi hm
  | reapExpired =>
    simp only [step, ite_none_right_eq_some] at h
    cases h.2
    exact .reap h.1
  | tick =>
    cases h
    exact .tick
  | processExit =>
    cases h
    exact .processExit
  | crash =>
    cases h
    exact .crash
  | recover id outcome =>
    simp only [step, ite_none_right_eq_some] at h
    cases h.2
    exact .recover h.1
  | boot =>
    simp only [step, ite_none_right_eq_some] at h
    cases h.2
    exact .boot h.1.1
  | serve =>
    simp only [step, ite_none_right_eq_some] at h
    cases h.2
    exact .serve

end Shiftgate.Transfer
