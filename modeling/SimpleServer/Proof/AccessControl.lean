import SimpleServer.Lib.Run
import SimpleServer.Ftp.Server

/-!
# Who may use the files of an FTP session

The account of a session is rewritten by USER and PASS and consulted by every command that
uses files.

* `Accounted`: what an account says about the logins of the session so far.
* `accounted_step`: every command keeps it.
* `accessControl_of_along`: files are used by those who logged in, and written by those with
  the permission, as long as STOR is only issued with it. The check for it in STOR is
  commented out (`anonymousStores_not`).
-/

namespace SimpleServer.Ftp

open Lib Utils

def FTPCommand.isPass : FTPCommand → Bool
  | .pass _ => true
  | _ => false

/-- USER and PASS. -/
def FTPCommand.isLogin : FTPCommand → Bool
  | .user _ => true
  | .pass _ => true
  | _ => false

/-- The logins of a session, without its other commands. -/
def logins (history : List Issued) : List Issued :=
  history.filter fun c => c.command.isLogin

/-- The last successful login was that of the user, with these permissions. -/
inductive LoggedIn (history : List Issued) : AccountPermissions → Bytes → Prop
  /-- USER anonymous; the passwords after it do not count. -/
  | anonymous {username : Bytes} {before passwords : List Issued} {env : CommandEnv}
      (hanon : eqIgnoreCase username anonUsername = true)
      (hlogins : logins history = before ++ ⟨.user username, env⟩ :: passwords)
      (hpasswords : ∀ c ∈ passwords, c.command.isPass = true) :
      LoggedIn history .read username
  /-- USER, directly followed by a PASS that was verified. -/
  | verified {username passwd : Bytes} {before : List Issued} {env env' : CommandEnv}
      (hlogins : logins history = before ++ [⟨.user username, env⟩, ⟨.pass passwd, env'⟩])
      (hverify : env'.accountVerify username passwd = .ok) :
      LoggedIn history .readWrite username

/-- The session logged in, with these permissions. -/
def AccountInfo.Granted (account : AccountInfo) (history : List Issued)
    (permitted : AccountPermissions → Prop) : Prop :=
  ∃ permissions username, account = .ok permissions username ∧
    LoggedIn history permissions username ∧ permitted permissions

/-- Access control over a whole session, at each of its commands. -/
structure AccessControl (cwk : Cwalk) (globalFolder : Bytes) (commands : List Issued) : Prop where
  read : ∀ pre c post, commands = pre ++ c :: post → ∀ path,
    .readFile path ∈ sessionActions cwk
        (runFrom (sessionStep cwk) (startSession globalFolder) pre) c ∨
      .listPath path ∈ sessionActions cwk
        (runFrom (sessionStep cwk) (startSession globalFolder) pre) c →
    (runFrom (sessionStep cwk) (startSession globalFolder) pre).state.account.Granted pre
      fun _ => True
  directory : ∀ pre c post, commands = pre ++ c :: post →
    (runFrom (sessionStep cwk) (startSession globalFolder)
        (pre ++ [c])).state.currentWorkingDirectory ≠
      (runFrom (sessionStep cwk) (startSession globalFolder) pre).state.currentWorkingDirectory →
    (runFrom (sessionStep cwk) (startSession globalFolder) pre).state.account.Granted pre
      fun _ => True
  write : ∀ pre c post, commands = pre ++ c :: post → ∀ path data,
    .writeToFile path data ∈ sessionActions cwk
        (runFrom (sessionStep cwk) (startSession globalFolder) pre) c →
    (runFrom (sessionStep cwk) (startSession globalFolder) pre).state.account.Granted pre
      fun permissions => permissions.hasWrite = true

def FTPCommand.isStor : FTPCommand → Bool
  | .stor _ => true
  | _ => false

def AccountInfo.hasWrite : AccountInfo → Bool
  | .ok permissions _ => permissions.hasWrite
  | _ => false

/-- What the check commented out in STOR asks for. -/
def StorPermitted (session : Session) (c : Issued) : Prop :=
  c.command.isStor = true → session.alive = true → session.state.account.isOk = true →
    session.state.account.hasWrite = true

instance (session : Session) (c : Issued) : Decidable (StorPermitted session c) :=
  inferInstanceAs (Decidable (_ → _ → _ → _))

/-! ## Accounts and logins -/

/-- What an account says about the logins so far. -/
def Accounted (history : List Issued) : AccountInfo → Prop
  | .empty => True
  | .onlyUser username =>
    eqIgnoreCase username anonUsername = false ∧
      ∃ before env, logins history = before ++ [⟨.user username, env⟩]
  | .ok permissions username =>
    LoggedIn history permissions username ∧
      (permissions = .readWrite → eqIgnoreCase username anonUsername = false)

variable {cwk : Cwalk} {globalFolder : Bytes} {history : List Issued} {state : FTPState}
  {session : Session} {c : Issued} {env : CommandEnv} {arg : Bytes}

theorem logins_append_login (h : c.command.isLogin = true) :
    logins (history ++ [c]) = logins history ++ [c] := by
  unfold logins
  rw [List.filter_append]
  congr 1
  exact List.filter_cons_of_pos h

theorem logins_append_other (h : c.command.isLogin = false) :
    logins (history ++ [c]) = logins history := by
  unfold logins
  rw [List.filter_append, List.filter_cons_of_neg (by rw [h]; exact Bool.false_ne_true),
    List.filter_nil, List.append_nil]

theorem LoggedIn.congr {history' : List Issued} {permissions : AccountPermissions}
    {username : Bytes} (hlogins : logins history' = logins history)
    (h : LoggedIn history permissions username) : LoggedIn history' permissions username := by
  cases h with
  | anonymous hanon h hpasswords => exact .anonymous hanon (hlogins.trans h) hpasswords
  | verified h hverify => exact .verified (hlogins.trans h) hverify

/-- An account is accounted for by the logins alone. -/
theorem Accounted.congr {history' : List Issued} (hlogins : logins history' = logins history) :
    ∀ {account : AccountInfo}, Accounted history account → Accounted history' account
  | .empty, _ => trivial
  | .onlyUser _, ⟨hanon, before, env, h⟩ => ⟨hanon, before, env, hlogins.trans h⟩
  | .ok _ _, ⟨h, hanon⟩ => ⟨h.congr hlogins, hanon⟩

theorem processUser_accounted (history : List Issued) :
    Accounted (history ++ [⟨.user arg, env⟩]) (processUser env state arg).state.account := by
  have hlogins : logins (history ++ [⟨.user arg, env⟩]) = logins history ++ [⟨.user arg, env⟩] :=
    logins_append_login rfl
  unfold processUser
  split_ifs with hanon
  · change Accounted _ (.ok .read arg)
    refine ⟨.anonymous hanon hlogins ?_, ?_⟩
    · intro c hc
      cases hc
    · intro heq
      cases heq
  · change Accounted _ (.onlyUser arg)
    exact ⟨by simpa using hanon, _, _, hlogins⟩

theorem verifyUser_accounted {username : Bytes}
    (hanon : eqIgnoreCase username anonUsername = false)
    (h : ∃ before env, logins history = before ++ [⟨.user username, env⟩]) :
    Accounted (history ++ [⟨.pass arg, env⟩])
      (verifyUser env state username arg).state.account := by
  obtain ⟨before, env', hlogins⟩ := h
  unfold verifyUser
  split
  · rename_i hverify
    have hlogins' : logins (history ++ [⟨.pass arg, env⟩]) =
        before ++ [⟨.user username, env'⟩, ⟨.pass arg, env⟩] := by
      rw [logins_append_login rfl, hlogins, List.append_assoc]
      rfl
    change Accounted _ (.ok .readWrite username)
    exact ⟨.verified hlogins' hverify, fun _ => hanon⟩
  · trivial
  · trivial
  · trivial

theorem processPass_accounted (h : Accounted history state.account) :
    Accounted (history ++ [⟨.pass arg, env⟩]) (processPass env state arg).state.account := by
  unfold processPass
  split
  · rename_i permissions username haccount
    rw [haccount] at h
    split_ifs with hanon
    · -- the account stays what it is, as one of the anonymous user
      rw [respondOnly, respond, haccount]
      obtain ⟨hlogged, hverified⟩ := h
      cases hlogged with
      | @anonymous _ before passwords env' _ hlogins hpasswords =>
        have hlogins' : logins (history ++ [⟨.pass arg, env⟩]) =
            before ++ ⟨.user username, env'⟩ :: (passwords ++ [⟨.pass arg, env⟩]) := by
          rw [logins_append_login rfl, hlogins, List.append_assoc]
          rfl
        refine ⟨.anonymous hanon hlogins' fun c hc => ?_, by rintro ⟨⟩⟩
        rcases List.mem_append.1 hc with hc | hc
        · exact hpasswords c hc
        · rw [List.mem_singleton.1 hc]
          rfl
      -- who was verified does not have the anonymous name
      | verified _ _ =>
        rw [hverified rfl] at hanon
        cases hanon
    · trivial
  · trivial
  · rename_i username haccount
    rw [haccount] at h
    exact verifyUser_accounted h.1 h.2

/-- **Every command keeps the account accounted for.** -/
theorem accounted_step (cwk : Cwalk) (c : Issued) (h : Accounted history state.account) :
    Accounted (history ++ [c]) (ftpProcessCommand cwk c.env state c.command).state.account := by
  obtain ⟨command, env⟩ := c
  by_cases hlogin : command.isLogin = true
  · cases command with
    | user arg => exact processUser_accounted history
    | pass arg => exact processPass_accounted h
    | _ => cases hlogin
  · have hother : command.isLogin = false := by simpa using hlogin
    have huser : ∀ arg, command ≠ .user arg := by
      rintro arg rfl
      cases hother
    have hpass : ∀ arg, command ≠ .pass arg := by
      rintro arg rfl
      cases hother
    dsimp only
    rw [ftpProcessCommand_account env huser hpass]
    exact h.congr (logins_append_other hother)

/-- **In a session that goes on, the account is accounted for.** -/
theorem accounted_run (cwk : Cwalk) (globalFolder : Bytes) (commands : List Issued)
    (halive : (runFrom (sessionStep cwk) (startSession globalFolder) commands).alive = true) :
    Accounted commands
      (runFrom (sessionStep cwk) (startSession globalFolder) commands).state.account := by
  induction commands using List.reverseRecOn with
  | nil => trivial
  | append_singleton commands c ih =>
    rw [runFrom_append, runFrom_cons, runFrom_nil, sessionStep] at halive ⊢
    split_ifs at halive ⊢ with hbefore
    · exact accounted_step cwk c (ih hbefore)
    -- a session that has ended takes no commands
    · exact absurd halive hbefore

/-! ## Files -/

/-- A command that uses files or changes the directory does so for an account that is ok. -/
theorem granted_of_isOk (halive : session.alive = true)
    (hsession : session = runFrom (sessionStep cwk) (startSession globalFolder) history)
    (hok : session.state.account.isOk = true) {permitted : AccountPermissions → Prop}
    (hpermitted : ∀ permissions username,
      session.state.account = .ok permissions username → permitted permissions) :
    session.state.account.Granted history permitted := by
  have h : Accounted history session.state.account := by
    rw [hsession] at halive ⊢
    exact accounted_run cwk globalFolder history halive
  cases haccount : session.state.account with
  | empty =>
    rw [haccount] at hok
    cases hok
  | onlyUser username =>
    rw [haccount] at hok
    cases hok
  | ok permissions username =>
    rw [haccount] at h
    exact ⟨permissions, username, rfl, h.1, hpermitted _ _ haccount⟩

/-- What a command does beyond replying and resolving its path is its effect, for an account
that is ok. -/
theorem session_effect {a : FtpAction} (ha : a ∈ sessionActions cwk session c)
    (hreply : a.isReply = false) (hresolved : ∀ path, a ≠ .resolved path) :
    session.alive = true ∧ session.state.account.isOk = true ∧
      ∃ path, effectOf c.command path a := by
  unfold sessionActions at ha
  split_ifs at ha with halive
  · cases htarget : commandTarget cwk session.state c.command with
    | none =>
      rw [ftpProcessCommand_none c.env htarget a ha] at hreply
      cases hreply
    | some path =>
      -- every transfer checks the account before its path is resolved
      obtain ⟨rest, hactions, hrest⟩ := ftpProcessCommand_some c.env htarget
      obtain ⟨arg, -, htransfer⟩ := Option.bind_eq_some_iff.1 htarget
      unfold transferTarget at htransfer
      split_ifs at htransfer with hboth
      refine ⟨halive, hboth.1, path, ?_⟩
      rw [hactions] at ha
      rcases List.mem_cons.1 ha with rfl | ha
      · exact absurd rfl (hresolved path)
      · rcases hrest a ha with h | h
        · rw [h] at hreply
          cases hreply
        · exact h
  · cases ha

theorem isStor_of_writes {command : FTPCommand} {path path' data : Bytes}
    (h : effectOf command path (.writeToFile path' data)) : command.isStor = true := by
  cases command with
  | stor arg => rfl
  | retr arg => cases h
  | list arg => cases h
  | _ => exact h.elim

theorem directory_unchanged (cwk : Cwalk) (c : Issued)
    (h : ¬ (session.alive = true ∧ session.state.account.isOk = true)) :
    (sessionStep cwk session c).state.currentWorkingDirectory =
      session.state.currentWorkingDirectory := by
  unfold sessionStep
  split_ifs with halive
  · have hok : session.state.account.isOk = false := by
      simpa using fun hok => h ⟨halive, hok⟩
    exact (ftpProcessCommand_same c.env (.inr hok)).cwd
  · rfl

/-- **Files are read, listed and written, and the directory is changed, only by those who
logged in for it**, in every session whose STOR commands are issued with the permission to
write. -/
theorem accessControl_of_along (cwk : Cwalk) (globalFolder : Bytes) (commands : List Issued)
    (h : Along (sessionStep cwk) StorPermitted (startSession globalFolder) commands) :
    AccessControl cwk globalFolder commands := by
  refine ⟨?_, ?_, ?_⟩
  · rintro pre c post rfl path (hread | hlist)
    · obtain ⟨halive, hok, -⟩ := session_effect hread rfl nofun
      exact granted_of_isOk halive rfl hok fun _ _ _ => trivial
    · obtain ⟨halive, hok, -⟩ := session_effect hlist rfl nofun
      exact granted_of_isOk halive rfl hok fun _ _ _ => trivial
  · rintro pre c post rfl hcwd
    rw [runFrom_append, runFrom_cons, runFrom_nil] at hcwd
    by_contra hnot
    refine hcwd (directory_unchanged cwk c ?_)
    rintro ⟨halive, hok⟩
    exact hnot (granted_of_isOk halive rfl hok fun _ _ _ => trivial)
  · rintro pre c post rfl path data hwrite
    obtain ⟨halive, hok, p, heffect⟩ := session_effect hwrite rfl nofun
    refine granted_of_isOk halive rfl hok fun permissions username haccount => ?_
    have hpermitted := (along_append.1 h).2.1 (isStor_of_writes heffect) halive hok
    rwa [haccount] at hpermitted

/-- A server on which every user can log in and a data connection is always there. -/
def openEnv : CommandEnv :=
  { quietEnv with
    accountVerify _ _ := .ok
    connectionAtOnce := true
    received := some (ascii "data")
    writeToFile := true }

/-- A user logs in and stores a file. -/
def userStores : List Issued :=
  [⟨.user (ascii "user"), openEnv⟩, ⟨.pass (ascii "secret"), openEnv⟩,
    ⟨.port ⟨0x7F000001, 4000⟩, openEnv⟩, ⟨.stor (ascii "file"), openEnv⟩]

theorem userStores_accessControl : AccessControl Cwalk.plain (ascii "/srv/ftp") userStores :=
  accessControl_of_along Cwalk.plain (ascii "/srv/ftp") userStores (by decide +kernel)

/-- The anonymous user stores a file. -/
def anonymousStores : List Issued :=
  [⟨.user (ascii "anonymous"), openEnv⟩, ⟨.port ⟨0x7F000001, 4000⟩, openEnv⟩,
    ⟨.stor (ascii "file"), openEnv⟩]

theorem anonymousStores_not :
    ¬ AccessControl Cwalk.plain (ascii "/srv/ftp") anonymousStores := by
  intro h
  have hwrite := h.write (anonymousStores.take 2) ⟨.stor (ascii "file"), openEnv⟩ [] rfl
    (ascii "/srv/ftp/file") (ascii "data") (by decide +kernel)
  obtain ⟨permissions, username, haccount, -, hpermitted⟩ := hwrite
  have hread : (runFrom (sessionStep Cwalk.plain) (startSession (ascii "/srv/ftp"))
      (anonymousStores.take 2)).state.account = .ok .read (ascii "anonymous") := by
    decide +kernel
  rw [hread] at haccount
  cases haccount
  cases hpermitted

end SimpleServer.Ftp
