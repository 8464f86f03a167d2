import Shiftgate.Accounts.Federation
import Shiftgate.Library.Runs

/-! A single-sign-on account and its subject: a link that a transaction has stored is found by every
later one and given to no other subject. -/

namespace Shiftgate.Accounts

open Library Users

variable {text : Text}

inductive FederationCall where
  | sso (issuer subject email displayName newID : String) (full : String → Bool)
  | gitHub (identity : GitHubIdentity) (userID organizationID : String)

def Database.federate (db : Database text) : FederationCall → Option (Database text)
  | .sso issuer subject email displayName newID full =>
    match db.federateSSOLink issuer subject email displayName newID full with
    | .ok (_, db') => some db'
    | .error _ => some db
  | .gitHub identity userID organizationID =>
    match db.federateGitHub identity userID organizationID with
    | .ok (_, db') => some db'
    | .error _ => some db

def Users.Linked (users : Users text) (id issuer subject : String) : Prop :=
  ∃ row ∈ users.rows, row.id = id ∧ row.ssoIssuer = issuer ∧ row.ssoSubject = subject ∧
    row.disabled = false

namespace Users.Linked

variable {users users' : Users text} {id issuer subject : String} {user : UserRow}

section

variable (h : users.Linked id issuer subject)

include h

theorem update {other : String} {f : UserRow → UserRow}
    (hwrite : users.update other f = some users')
    (hf : ∀ row ∈ users.rows, row.id = id → row.ssoIssuer = issuer → row.ssoSubject = subject →
      row.id = other → (f row).id = id ∧ (f row).ssoIssuer = issuer ∧
        (f row).ssoSubject = subject ∧ (f row).disabled = row.disabled) :
    users'.Linked id issuer subject := by
  obtain ⟨row, hrow, hid, hi, hs, hd⟩ := h
  refine ⟨_, mem_update hwrite hrow, ?_⟩
  split
  · rename_i hother
    obtain ⟨hid', hi', hs', hd'⟩ := hf row hrow hid hi hs hother
    exact ⟨hid', hi', hs', hd'.trans hd⟩
  · exact ⟨hid, hi, hs, hd⟩

theorem insert {row : UserRow} (hwrite : users.insert row = some users') :
    users'.Linked id issuer subject := by
  obtain ⟨found, hfound, hlink⟩ := h
  exact ⟨found, mem_insert hwrite hfound, hlink⟩

theorem sso {issuer' subject' email displayName newID : String} (hissuer : issuer ≠ "")
    (ho : SSOOutcome users issuer' subject' email displayName newID user users') :
    users'.Linked id issuer subject := by
  cases ho with
  | linked => exact h
  | renamed hlink hwrite =>
    exact h.update hwrite fun row _ hid hi hs _ => ⟨hid, hi, hs, rfl⟩
  | joined hlink hemail hfree hwrite =>
    refine h.update hwrite fun row hrow hid hi hs hother => ?_
    obtain rfl := eq_of_id hrow (byEmail_some hemail).1 hother
    obtain ⟨hi', hs'⟩ := hfree (hi ▸ hissuer)
    exact ⟨hid, hi' ▸ hi, hs' ▸ hs, rfl⟩
  | created hlink hemail hwrite => exact h.insert hwrite

theorem gitHub {identity : GitHubIdentity} {userID : String}
    (ho : GitHubOutcome users identity userID user users') : users'.Linked id issuer subject := by
  cases ho with
  | linked => exact h
  | renamed hlink hwrite | joined hemail hfree hwrite =>
    exact h.update hwrite fun row _ hid hi hs _ => ⟨hid, hi, hs, rfl⟩
  | created hemail hwrite => exact h.insert hwrite

end

theorem federate {db db' : Database text} {call : FederationCall}
    (h : db.users.Linked id issuer subject) (hissuer : issuer ≠ "")
    (hstep : db.federate call = some db') : db'.users.Linked id issuer subject := by
  cases call with
  | sso issuer' subject' email displayName newID full =>
    simp only [Database.federate] at hstep
    split at hstep
    · rename_i found db'' hok
      cases hstep
      exact h.sso hissuer (Database.federateSSOLink_ok hok).1
    · cases hstep
      exact h
  | gitHub identity userID organizationID =>
    simp only [Database.federate] at hstep
    split at hstep
    · rename_i found db'' hok
      cases hstep
      exact h.gitHub (Database.federateGitHub_ok hok).1
    · cases hstep
      exact h

theorem returns {db : Database text} (h : db.users.Linked id issuer subject)
    (hissuer : issuer ≠ "") (email displayName newID : String) (full : String → Bool) :
    ∃ user db', db.federateSSOLink issuer subject email displayName newID full = .ok (user, db') ∧
      user.id = id := by
  obtain ⟨row, hrow, hid, hi, hs, hd⟩ := h
  have hfound := byLink_of_mem hrow ⟨hi, hs⟩ hissuer
  unfold Database.federateSSOLink resolveSSO
  rw [hfound]
  simp only
  split_ifs
  · obtain ⟨users', hwrite⟩ :
        ∃ users', db.users.update row.id (fun r => { r with displayName }) = some users' :=
      update_commits fun _ => ⟨rfl, rfl, rfl, rfl, rfl, rfl⟩
    have hrenamed : ({ row with displayName } : UserRow).disabled = false := hd
    rw [setDisplayName, hwrite]
    simp only [hrenamed]
    simp [hid]
  · simp [hd, hid]

theorem excludes {issuer' subject' email displayName newID : String}
    (h : users.Linked id issuer subject) (hissuer : issuer ≠ "")
    (hother : ¬ (issuer' = issuer ∧ subject' = subject))
    (ho : SSOOutcome users issuer' subject' email displayName newID user users') :
    user.id ≠ id := by
  obtain ⟨row, hrow, hid, hi, hs, -⟩ := h
  have hlinked : ∀ found, users.byLink issuer' subject' = some found → found.id ≠ id := by
    intro found hfound hsame
    obtain ⟨hmem, hi', hs'⟩ := byLink_some hfound
    obtain rfl := eq_of_id hmem hrow (hsame.trans hid.symm)
    exact hother ⟨hi'.symm.trans hi, hs'.symm.trans hs⟩
  cases ho with
  | linked hlink => exact hlinked _ hlink
  | @renamed found _ hlink hwrite => exact hlinked found hlink
  | @joined found _ hlink hemail hfree hwrite =>
    intro hsame
    obtain rfl := eq_of_id (byEmail_some hemail).1 hrow (hsame.trans hid.symm)
    obtain ⟨hi', hs'⟩ := hfree (hi ▸ hissuer)
    exact hother ⟨hi'.symm.trans hi, hs'.symm.trans hs⟩
  | created hlink hemail hwrite =>
    intro hsame
    exact insert_fresh hwrite hrow (hid.trans hsame.symm)

end Users.Linked

def Database.HasAccount (db : Database text) (issuer subject email : String) : Prop :=
  (db.users.byLink issuer subject).isSome ∨ (db.users.byEmail (text.normalize email)).isSome

theorem SSOOutcome.linked_after {users users' : Users text} {user : UserRow}
    {issuer subject email displayName newID : String}
    (ho : SSOOutcome users issuer subject email displayName newID user users')
    (hfound : (users.byLink issuer subject).isSome ∨ (users.byEmail email).isSome)
    (hdisabled : user.disabled = false) : users'.Linked user.id issuer subject := by
  cases ho with
  | linked hlink =>
    obtain ⟨hmem, hi, hs⟩ := byLink_some hlink
    exact ⟨user, hmem, rfl, hi, hs, hdisabled⟩
  | @renamed found _ hlink hwrite =>
    obtain ⟨hmem, hi, hs⟩ := byLink_some hlink
    refine ⟨{ found with displayName }, ?_, rfl, hi, hs, hdisabled⟩
    simpa using mem_update hwrite hmem
  | @joined found _ hlink hemail hfree hwrite =>
    refine ⟨{ found with ssoIssuer := issuer, ssoSubject := subject }, ?_, rfl, rfl, rfl, hdisabled⟩
    simpa using mem_update hwrite (byEmail_some hemail).1
  | created hlink hemail hwrite =>
    rw [hlink, hemail] at hfound
    simp at hfound

/-- An account that single sign-on found for a subject stays that subject's through every later
federation: the row carries the link, and no other subject is ever signed in to it. -/
theorem linked_account_keeps_subject {db db' later : Database text} {user : UserRow}
    {issuer subject email displayName newID : String} {full : String → Bool}
    {calls : List FederationCall} (hissuer : issuer ≠ "")
    (hfound : db.HasAccount issuer subject email)
    (hcall : db.federateSSOLink issuer subject email displayName newID full = .ok (user, db'))
    (hlater : exec Database.federate db' calls = some later) :
    (∃ row ∈ later.users.rows, row.id = user.id ∧ row.ssoIssuer = issuer ∧
        row.ssoSubject = subject) ∧
      (∀ email' name' id' full', ∃ user' db'',
        later.federateSSOLink issuer subject email' name' id' full' = .ok (user', db'') ∧
          user'.id = user.id) ∧
      ∀ issuer' subject' email' name' id' full' user' db'',
        ¬ (issuer' = issuer ∧ subject' = subject) →
        later.federateSSOLink issuer' subject' email' name' id' full' = .ok (user', db'') →
          user'.id ≠ user.id := by
  obtain ⟨ho, hdisabled, -⟩ := Database.federateSSOLink_ok hcall
  have hlinked : later.users.Linked user.id issuer subject :=
    Reachable.invariant (fun d : Database text => d.users.Linked user.id issuer subject)
      (fun _ _ _ h hstep => h.federate hissuer hstep) (ho.linked_after hfound hdisabled)
      ⟨calls, hlater⟩
  refine ⟨?_, hlinked.returns hissuer, ?_⟩
  · obtain ⟨row, hrow, hid, hi, hs, -⟩ := hlinked
    exact ⟨row, hrow, hid, hi, hs⟩
  · intro issuer' subject' email' name' id' full' user' db'' hother hok
    exact hlinked.excludes hissuer hother (Database.federateSSOLink_ok hok).1

def plainText : Text := ⟨id, id, id, fun a b => a == b⟩

def emptyDatabase : Database plainText := ⟨0, ⟨[], .nil⟩, [], [], [], []⟩

def passwordRow : UserRow :=
  { id := "u", email := "a@x", passwordHash := "hash", displayName := "A", disabledAt := none,
    externalID := "", ssoIssuer := "", ssoSubject := "", githubID := none, githubLogin := "" }

def passwordDatabase : Database plainText :=
  { emptyDatabase with users := ⟨[passwordRow], List.pairwise_singleton _ _⟩ }

def noneFull : String → Bool := fun _ => false

def sampleLogin (db : Database plainText) (subject newID : String) :
    Except FederateError (UserRow × Database plainText) :=
  db.federateSSOLink "issuer" subject "a@x" "A" newID noneFull

theorem passwordDatabase_keeps_subject : ∃ user db',
    passwordDatabase.HasAccount "issuer" "s" "a@x" ∧
    sampleLogin passwordDatabase "s" "u1" = .ok (user, db') ∧ user.id = "u" ∧
    ∀ user' db'', sampleLogin db' "other" "u2" = .ok (user', db'') → user'.id ≠ "u" := by
  have hfound : passwordDatabase.HasAccount "issuer" "s" "a@x" := .inr (by decide)
  obtain ⟨⟨user, db'⟩, hok, hid⟩ : ∃ r, sampleLogin passwordDatabase "s" "u1" = .ok r ∧
      r.1.id = "u" := by decide
  obtain ⟨-, -, hothers⟩ := linked_account_keeps_subject (by decide) hfound hok (exec_nil db')
  exact ⟨user, db', hfound, hok, hid, fun user' db'' hother =>
    hid ▸ hothers _ _ _ _ _ _ user' db'' (by decide) hother⟩

/-- An account that single sign-on created has no link stored, and a second subject that asserts its
email is signed in to it. -/
theorem created_account_taken_over : ∃ user db' user' db'',
    sampleLogin emptyDatabase "s" "u1" = .ok (user, db') ∧
    (∃ row ∈ db'.users.rows, row.id = user.id ∧ row.ssoIssuer = "" ∧ row.ssoSubject = "") ∧
    sampleLogin db' "other" "u2" = .ok (user', db'') ∧ user'.id = user.id := by
  simp only [exists_and_left]
  decide

end Shiftgate.Accounts
