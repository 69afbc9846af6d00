import SimpleServer.Lib.Run
import SimpleServer.Ftp.Server

/-!
# FTP clients and the served folder

Every path of a session is accepted by its text: it starts with the text of the served
folder. That is not yet a path below the folder, because a sibling whose name extends the
folder's name starts with the same text.

* `served_step`: the folders of a session stay what they are.
* `session_target`, `session_resolved`, `session_cwd`: which paths a command arrives at.
* `staysInside_iff`: a session stays inside exactly when no argument leads to a name that
  extends the name of the folder.
-/

namespace SimpleServer.Ftp

open Lib Utils

/-- The served folder, or a path below it, without `..` and without a separator at the end. -/
def Inside (folder : RealPath) (p : Bytes) : Prop :=
  Path.Below slash folder.path p ∧ Path.Clean slash dot p

/-- A session with these commands stays inside the served folder. -/
structure StaysInside (cwk : Cwalk) (folder : RealPath) (commands : List Issued) : Prop where
  /-- The current working directory is inside at any time. -/
  cwd : ∀ pre post, commands = pre ++ post → Inside folder
    (runFrom (sessionStep cwk) (startSession folder.path) pre).state.currentWorkingDirectory
  /-- So is every path a command resolves. -/
  resolved : ∀ pre c post, commands = pre ++ c :: post → ∀ p,
    .resolved p ∈ sessionActions cwk
      (runFrom (sessionStep cwk) (startSession folder.path) pre) c → Inside folder p
  /-- A change of the directory that is refused leaves it as it was. -/
  refused : ∀ pre c post, commands = pre ++ c :: post →
    (∀ directory, directoryArgument c.command = some directory → resolvePathInCwd cwk
      (runFrom (sessionStep cwk) (startSession folder.path) pre).state directory = none) →
    (runFrom (sessionStep cwk) (startSession folder.path)
        (pre ++ [c])).state.currentWorkingDirectory =
      (runFrom (sessionStep cwk) (startSession folder.path) pre).state.currentWorkingDirectory

/-- The argument a command gets to resolve: the session is alive and logged in, and for a
transfer the data connection was set up. -/
def pathArgument (session : Session) (command : FTPCommand) : Option Bytes :=
  if session.alive = true ∧ session.state.account.isOk = true then
    match directoryArgument command with
    | some directory => some directory
    | none =>
      if session.state.dataSettings = .none then none
      else (transferArgument command).map cString
  else none

/-- The argument does not lead to a path whose name extends the name of the served folder. -/
def NotExtended (cwk : Cwalk) (folder : RealPath) (session : Session) (c : Issued) : Prop :=
  ∀ arg, pathArgument session c.command = some arg →
    ¬ Path.Extends slash folder.path (lexicalTarget cwk session.state arg)

instance (cwk : Cwalk) (folder : RealPath) (session : Session) (c : Issued) :
    Decidable (NotExtended cwk folder session c) :=
  match h : pathArgument session c.command with
  | none => isTrue fun arg harg => by rw [h] at harg; cases harg
  | some arg =>
    decidable_of_iff (¬ Path.Extends slash folder.path (lexicalTarget cwk session.state arg))
      ⟨fun hnot arg' harg => by rw [h] at harg; cases harg; exact hnot, fun hnot => hnot arg h⟩

variable {cwk : Cwalk} {folder : RealPath} {session : Session} {c : Issued} {arg p : Bytes}

/-! ## Where a command arrives -/

theorem pathArgument_transfer (h : transferArgument c.command = some arg)
    (halive : session.alive = true)
    (htarget : transferTarget cwk session.state arg = some p) :
    pathArgument session c.command = some (cString arg) ∧
      resolvePathInCwd cwk session.state (cString arg) = some p := by
  unfold transferTarget at htarget
  split_ifs at htarget with hboth
  have hdir : directoryArgument c.command = none := by
    cases hc : c.command <;> rw [hc] at h <;> first | rfl | cases h
  refine ⟨?_, htarget⟩
  rw [pathArgument, if_pos ⟨halive, hboth.1⟩, hdir]
  dsimp only
  rw [if_neg hboth.2, h, Option.map_some]

/-- A path a command resolves is where its argument leads to. -/
theorem session_resolved (hs : Served folder session.state)
    (h : .resolved p ∈ sessionActions cwk session c) :
    ∃ arg, pathArgument session c.command = some arg ∧
      p = lexicalTarget cwk session.state arg ∧ folder.path <+: p := by
  unfold sessionActions at h
  split_ifs at h with halive
  · cases htarget : commandTarget cwk session.state c.command with
    | none => cases ftpProcessCommand_none c.env htarget _ h
    | some path =>
      obtain ⟨rest, hactions, hrest⟩ := ftpProcessCommand_some c.env htarget
      rw [hactions] at h
      -- the path of the command comes first, and no effect of a command resolves another
      have hp : p = path := by
        rcases List.mem_cons.1 h with h | h
        · cases h
          rfl
        · rcases hrest _ h with hreply | heffect
          · cases hreply
          · exact absurd rfl (effectOf_not_resolved heffect p)
      subst hp
      obtain ⟨arg, harg, htransfer⟩ := Option.bind_eq_some_iff.1 htarget
      obtain ⟨hpath, hresolve⟩ := pathArgument_transfer harg halive htransfer
      exact ⟨_, hpath, (resolvePathInCwd_iff hs).1 hresolve⟩
  · cases h

/-- A command leaves the directory as it is, or takes it to where its argument leads to. -/
theorem session_cwd (cwk : Cwalk) (hs : Served folder session.state) :
    (sessionStep cwk session c).state.currentWorkingDirectory =
        session.state.currentWorkingDirectory ∨
      ∃ arg, pathArgument session c.command = some arg ∧
        directoryArgument c.command = some arg ∧
        (sessionStep cwk session c).state.currentWorkingDirectory =
          lexicalTarget cwk session.state arg ∧
        folder.path <+: lexicalTarget cwk session.state arg := by
  unfold sessionStep
  split_ifs with halive
  · dsimp only
    cases hdir : directoryArgument c.command with
    | none => exact .inl (ftpProcessCommand_same c.env (.inl hdir)).cwd
    | some directory =>
      -- without a login the command is refused
      by_cases hok : session.state.account.isOk = true
      · rw [ftpProcessCommand_directory c.env hdir hok, changeDirnameTo_eq hs]
        split_ifs with hpre
        · refine .inr ⟨directory, ?_, rfl, rfl, hpre⟩
          rw [pathArgument, if_pos ⟨halive, hok⟩, hdir]
        · exact .inl rfl
      · exact .inl (ftpProcessCommand_same c.env (.inr (by simpa using hok))).cwd
  · exact .inl rfl

/-- An argument that is accepted becomes the directory, or is the path that is resolved. -/
theorem session_target (hs : Served folder session.state)
    (harg : pathArgument session c.command = some arg)
    (hpre : folder.path <+: lexicalTarget cwk session.state arg) :
    (sessionStep cwk session c).state.currentWorkingDirectory =
        lexicalTarget cwk session.state arg ∨
      .resolved (lexicalTarget cwk session.state arg) ∈ sessionActions cwk session c := by
  by_cases hboth : session.alive = true ∧ session.state.account.isOk = true
  swap
  · rw [pathArgument, if_neg hboth] at harg
    cases harg
  rw [pathArgument, if_pos hboth] at harg
  obtain ⟨halive, hok⟩ := hboth
  split at harg
  · rename_i directory hdir
    obtain rfl : directory = arg := Option.some.inj harg
    left
    rw [sessionStep, if_pos halive]
    dsimp only
    rw [ftpProcessCommand_directory c.env hdir hok, changeDirnameTo_eq hs, if_pos hpre]
  -- a transfer: its path is resolved before anything else happens
  · split_ifs at harg with hmode
    obtain ⟨transfer, htransfer, rfl⟩ := Option.map_eq_some_iff.1 harg
    have htarget : commandTarget cwk session.state c.command =
        some (lexicalTarget cwk session.state (cString transfer)) := by
      rw [commandTarget, htransfer, Option.bind_some, transferTarget, if_pos ⟨hok, hmode⟩]
      exact (resolvePathInCwd_iff hs).2 ⟨rfl, hpre⟩
    obtain ⟨rest, hactions, -⟩ := ftpProcessCommand_some c.env htarget
    right
    rw [sessionActions, if_pos halive, hactions]
    exact List.mem_cons_self

/-! ## Steps and runs -/

/-- **The folders of a session stay what they are**: one is served, the other absolute. -/
theorem served_step (hs : Served folder session.state) :
    Served folder (sessionStep cwk session c).state := by
  have hglobal : (sessionStep cwk session c).state.globalFolder = session.state.globalFolder := by
    unfold sessionStep
    split_ifs
    · dsimp only
      cases hdir : directoryArgument c.command with
      | none => exact (ftpProcessCommand_same c.env (.inl hdir)).global
      | some directory =>
        by_cases hok : session.state.account.isOk = true
        · rw [ftpProcessCommand_directory c.env hdir hok]
          exact (changeDirnameTo_frame directory).1
        · exact (ftpProcessCommand_same c.env (.inr (by simpa using hok))).global
    · rfl
  refine ⟨hs.notRoot, hglobal.trans hs.global, ?_⟩
  rcases session_cwd cwk (c := c) hs with hcwd | ⟨arg, -, -, hcwd, -⟩
  · rw [hcwd]
    exact hs.absolute
  · rw [hcwd]
    exact Path.absolute_head slash _

theorem served_start (hroot : ¬ folder.IsRoot) :
    Served folder (startSession folder.path).state :=
  ⟨hroot, rfl, folder.path_head⟩

theorem served_run (cwk : Cwalk) (hroot : ¬ folder.IsRoot) (commands : List Issued) :
    Served folder (runFrom (sessionStep cwk) (startSession folder.path) commands).state := by
  induction commands using List.reverseRecOn with
  | nil => exact served_start hroot
  | append_singleton commands c ih =>
    rw [runFrom_append]
    exact served_step ih

/-- What is accepted and does not extend the name of the folder is inside. -/
theorem inside_of_prefix (hroot : ¬ folder.IsRoot)
    (hpre : folder.path <+: lexicalTarget cwk session.state arg)
    (hnot : ¬ Path.Extends slash folder.path (lexicalTarget cwk session.state arg)) :
    Inside folder (lexicalTarget cwk session.state arg) :=
  ⟨(Path.prefix_iff.1 hpre).resolve_right hnot, lexicalTarget_clean hroot hpre⟩

theorem cwd_inside_step (hs : Served folder session.state)
    (hin : Inside folder session.state.currentWorkingDirectory)
    (hnot : NotExtended cwk folder session c) :
    Inside folder (sessionStep cwk session c).state.currentWorkingDirectory := by
  rcases session_cwd cwk (c := c) hs with hcwd | ⟨arg, harg, -, hcwd, hpre⟩
  · rwa [hcwd]
  · rw [hcwd]
    exact inside_of_prefix hs.notRoot hpre (hnot arg harg)

/-- **A session stays inside the served folder exactly when no argument leads to a path whose
name extends the name of the folder.** -/
theorem staysInside_iff (cwk : Cwalk) (folder : RealPath) (hroot : ¬ folder.IsRoot)
    (commands : List Issued) :
    StaysInside cwk folder commands ↔
      Along (sessionStep cwk) (NotExtended cwk folder) (startSession folder.path) commands := by
  constructor
  · intro h
    rw [along_iff]
    rintro pre c post rfl arg harg hext
    have hs := served_run cwk hroot pre
    have hpre := Path.prefix_iff.2 (.inr hext)
    -- the argument is accepted, and the path it leads to is not below the folder
    rcases session_target hs harg hpre with hcwd | hres
    · have hin := h.cwd (pre ++ [c]) post (by simp)
      rw [runFrom_append, runFrom_cons, runFrom_nil, hcwd] at hin
      exact Path.not_below_of_extends hext hin.1
    · exact Path.not_below_of_extends hext (h.resolved pre c post rfl _ hres).1
  · intro h
    refine ⟨?_, ?_, ?_⟩
    · rintro pre post rfl
      have hinv : ∀ session c, (Served folder session.state ∧
          Inside folder session.state.currentWorkingDirectory) →
          NotExtended cwk folder session c →
          Served folder (sessionStep cwk session c).state ∧
            Inside folder (sessionStep cwk session c).state.currentWorkingDirectory :=
        fun session c hs hnot => ⟨served_step hs.1, cwd_inside_step hs.1 hs.2 hnot⟩
      have hstart : Inside folder folder.path := ⟨.inl rfl, folder.path_clean hroot⟩
      exact (Along.invariant hinv ⟨served_start hroot, hstart⟩ (along_append.1 h).1).2
    · rintro pre c post rfl p hp
      have hnot := (along_append.1 h).2.1
      obtain ⟨arg, harg, rfl, hpre⟩ := session_resolved (served_run cwk hroot pre) hp
      exact inside_of_prefix hroot hpre (hnot arg harg)
    -- the directory only changes to a path that was resolved
    · rintro pre c post rfl hrefused
      have hs := served_run cwk hroot pre
      rw [runFrom_append, runFrom_cons, runFrom_nil]
      rcases session_cwd cwk (c := c) hs with hcwd | ⟨arg, -, hdir, -, hpre⟩
      · exact hcwd
      · have hsome := (resolvePathInCwd_iff hs).2 ⟨rfl, hpre⟩
        rw [hrefused arg hdir] at hsome
        cases hsome

/-- The served folder of the examples. -/
def srvFtp : RealPath := ⟨[ascii "srv", ascii "ftp"], by decide⟩

/-- An anonymous user changes to a folder and back up, twice. -/
def upAndDown : List Issued :=
  [⟨.user (ascii "anonymous"), quietEnv⟩, ⟨.cwd (ascii "a/./b//"), quietEnv⟩,
    ⟨.cdup, quietEnv⟩, ⟨.cwd (ascii "../../.."), quietEnv⟩]

theorem upAndDown_staysInside : StaysInside Cwalk.plain srvFtp upAndDown := by
  rw [staysInside_iff Cwalk.plain srvFtp (by decide)]
  decide +kernel

/-- An anonymous user changes to the sibling `/srv/ftp2`. -/
def toSibling : List Issued :=
  [⟨.user (ascii "anonymous"), quietEnv⟩, ⟨.cwd (ascii "../ftp2"), quietEnv⟩]

theorem toSibling_leaves : ¬ StaysInside Cwalk.plain srvFtp toSibling := by
  intro h
  have hin := h.cwd toSibling [] rfl
  refine Path.not_below_of_extends ⟨0x32, [], by decide, ?_⟩ hin.1
  decide +kernel

end SimpleServer.Ftp
