import SimpleServer.Ftp.DirName
import SimpleServer.Proof.ServedFolder

/-!
# The printed directory of an FTP session

PWD prints the part of the current working directory behind the text of the served folder, and
CWD puts the text of the served folder before an absolute path again. The two are inverse as
long as that part starts with a separator.

* `normal_run`: the directory of a session is in normal form at any time.
* `printsBack_iff_below`: the printed name leads back, if the directory is below the folder.
* `printsBack_iff`: so it does in a session that enters no name that extends the folder's name.
-/

namespace SimpleServer.Ftp

open Lib Utils

/-- The name of the current working directory is printed and leads back to it. -/
def PrintsBack (cwk : Cwalk) (malloc : (n : ℕ) → List.Vector UInt8 n) (state : FTPState) : Prop :=
  ∃ name escaped buffer escapedBuffer,
    -- both forms are there, in a buffer of the size that was asked for
    writeDirName malloc state state.currentWorkingDirectory false = .ok buffer ∧
    name ++ [0] <+: buffer ∧
    writeDirName malloc state state.currentWorkingDirectory true = .ok escapedBuffer ∧
    escaped ++ [0] <+: escapedBuffer ∧
    escapedBuffer.length = neededSize state state.currentWorkingDirectory true + 1 ∧
    unescapeQuotes escaped = name ∧
    name.head? = some slash ∧
    (changeDirnameTo cwk state name).1.currentWorkingDirectory = state.currentWorkingDirectory

/-- At any time of a session with these commands the name of the directory leads back. -/
def AlwaysPrintsBack (cwk : Cwalk) (malloc : (n : ℕ) → List.Vector UInt8 n) (folder : RealPath)
    (commands : List Issued) : Prop :=
  ∀ pre post, commands = pre ++ post →
    PrintsBack cwk malloc (runFrom (sessionStep cwk) (startSession folder.path) pre).state

/-- The directory that CWD and CDUP of a user who is logged in enter. -/
def enteredArgument (session : Session) (command : FTPCommand) : Option Bytes :=
  if session.alive = true ∧ session.state.account.isOk = true then directoryArgument command
  else none

/-- The command does not enter a directory whose name extends the name of the served folder. -/
def EntersNoExtension (cwk : Cwalk) (folder : RealPath) (session : Session) (c : Issued) : Prop :=
  ∀ arg ∈ enteredArgument session c.command,
    ¬ Path.Extends slash folder.path (lexicalTarget cwk session.state arg)

instance (cwk : Cwalk) (folder : RealPath) (session : Session) (c : Issued) :
    Decidable (EntersNoExtension cwk folder session c) :=
  inferInstanceAs (Decidable (∀ arg ∈ enteredArgument session c.command, _))

/-- What holds of the folders of any session: the directory is in normal form and starts with
the text of the served folder. -/
structure Normal (folder : RealPath) (state : FTPState) : Prop extends Served folder state where
  lexical : Path.lexical slash dot state.currentWorkingDirectory = state.currentWorkingDirectory
  starts : folder.path <+: state.currentWorkingDirectory

variable {cwk : Cwalk} {malloc : (n : ℕ) → List.Vector UInt8 n} {folder : RealPath}
  {state : FTPState} {session : Session} {c : Issued} {arg name rest : Bytes}

/-! ## Normal forms -/

theorem enteredArgument_eq_some :
    enteredArgument session c.command = some arg ↔
      session.alive = true ∧ session.state.account.isOk = true ∧
        directoryArgument c.command = some arg := by
  unfold enteredArgument
  split_ifs with hboth
  · simp [hboth.1, hboth.2]
  · simp only [false_iff]
    exact fun h => hboth ⟨h.1, h.2.1⟩

/-- A command leaves the directory as it is, or enters its argument. -/
theorem session_entered (cwk : Cwalk) (hs : Served folder session.state) :
    (sessionStep cwk session c).state.currentWorkingDirectory =
        session.state.currentWorkingDirectory ∨
      ∃ arg, enteredArgument session c.command = some arg ∧
        (sessionStep cwk session c).state.currentWorkingDirectory =
          lexicalTarget cwk session.state arg ∧
        folder.path <+: lexicalTarget cwk session.state arg := by
  rcases session_cwd cwk (c := c) hs with hsame | ⟨arg, hpath, hdir, hcwd, hpre⟩
  · exact .inl hsame
  · have hboth : session.alive = true ∧ session.state.account.isOk = true := by
      by_contra hnot
      rw [pathArgument, if_neg hnot] at hpath
      cases hpath
    exact .inr ⟨arg, enteredArgument_eq_some.2 ⟨hboth.1, hboth.2, hdir⟩, hcwd, hpre⟩

theorem normal_start (hroot : ¬ folder.IsRoot) : Normal folder (startSession folder.path).state :=
  { served_start hroot with
    lexical := Path.lexical_absolute folder.isName
    starts := List.prefix_rfl }

theorem normal_step (hn : Normal folder session.state) :
    Normal folder (sessionStep cwk session c).state := by
  have hserved : Served folder (sessionStep cwk session c).state := served_step hn.toServed
  rcases session_entered cwk (c := c) hn.toServed with hcwd | ⟨arg, -, hcwd, hpre⟩
  · exact { hserved with lexical := by rw [hcwd]; exact hn.lexical
                         starts := by rw [hcwd]; exact hn.starts }
  · exact { hserved with lexical := by rw [hcwd]; exact Path.lexical_idem _
                         starts := by rw [hcwd]; exact hpre }

/-- **The directory of a session is in normal form** at any time. -/
theorem normal_run (cwk : Cwalk) (hroot : ¬ folder.IsRoot) (commands : List Issued) :
    Normal folder (runFrom (sessionStep cwk) (startSession folder.path) commands).state := by
  induction commands using List.reverseRecOn with
  | nil => exact normal_start hroot
  | append_singleton commands c ih =>
    rw [runFrom_append]
    exact normal_step ih

/-! ## The printed name -/

theorem Normal.global_ne_slash (hn : Normal folder state) :
    state.globalFolder.getLast? ≠ some slash := by
  rw [hn.global]
  exact (folder.path_clean hn.notRoot).noTrailing

theorem Normal.cwd_ne_slash (hn : Normal folder state) :
    state.currentWorkingDirectory.getLast? ≠ some slash := by
  have hne := RealPath.ne_root_of_prefix hn.notRoot hn.starts
  rw [← hn.lexical] at hne ⊢
  exact (Path.lexical_clean hne).noTrailing

/-- The name that is printed, plain or escaped. -/
theorem dirName_eq (hn : Normal folder state) (escape : Bool)
    (hcwd : state.currentWorkingDirectory = folder.path ++ rest) :
    getCurrentDirNameRelativeToFtpRoot state escape =
      some (if rest = [] then [slash] else if escape then rest.flatMap escapeByte else rest) := by
  have hglobal := hn.global_ne_slash
  have hlast := hn.cwd_ne_slash
  have hpre : state.globalFolder.isPrefixOf state.currentWorkingDirectory = true := by
    rw [List.isPrefixOf_iff_prefix, hn.global]
    exact hn.starts
  unfold getCurrentDirNameRelativeToFtpRoot getDirNameRelativeToFtpRoot
  rw [if_neg (not_or.2 ⟨hglobal, hlast⟩), if_neg (not_not.2 hpre), hn.global, hcwd,
    List.length_append, List.drop_left]
  by_cases hrest : rest = []
  · rw [if_pos hrest, if_pos (by rw [hrest, List.length_nil, Nat.add_zero])]
  · have hpos := List.length_pos_iff.2 hrest
    rw [if_neg hrest, if_neg (by omega)]
    rfl

/-- The name with its separator leads back to the directory. -/
theorem changeDirnameTo_printed (hn : Normal folder state)
    (hcwd : state.currentWorkingDirectory = folder.path ++ rest)
    (hname : name = if rest = [] then [slash] else rest) (hhead : name.head? = some slash) :
    (changeDirnameTo cwk state name).1.currentWorkingDirectory = state.currentWorkingDirectory := by
  have habsolute : fileIsAbsolute cwk name = true := by
    have hne : name ≠ [] := fun hnil => by rw [hnil] at hhead; cases hhead
    rw [fileIsAbsolute, if_neg (fun hlen => hne (List.length_eq_zero_iff.1 hlen)),
      cwk.isAbsolute_eq name hne, hhead, beq_self_eq_true]
  have htarget : lexicalTarget cwk state name = state.currentWorkingDirectory := by
    rw [lexicalTarget, joinedPath, if_pos habsolute, hn.global, hname]
    split_ifs with hrest
    · rw [Path.lexical_append_sep, hcwd, hrest, List.append_nil]
      exact Path.lexical_absolute folder.isName
    · rw [← hcwd, hn.lexical]
  rw [changeDirnameTo_eq hn.toServed, htarget, if_pos hn.starts]

/-- **The printed name leads back** exactly if the directory does not extend the name of the
served folder. -/
theorem printsBack_iff_below (hn : Normal folder state) :
    PrintsBack cwk malloc state ↔
      ¬ Path.Extends slash folder.path state.currentWorkingDirectory := by
  obtain ⟨rest, hcwd⟩ := hn.starts
  have hplain := dirName_eq hn false hcwd.symm
  have hescaped := dirName_eq hn true hcwd.symm
  obtain ⟨buffer, hbuffer, hstart, -⟩ := writeDirName_eq malloc hplain
  obtain ⟨escapedBuffer, hescapedBuffer, hescapedStart, hsize⟩ := writeDirName_eq malloc hescaped
  rw [if_neg Bool.false_ne_true] at hstart
  rw [if_pos rfl] at hescapedStart
  constructor
  · rintro ⟨name, -, buffer', -, hbuffer', hstart', -, -, -, -, hhead, -⟩ hext
    -- the first byte of the buffer is the one behind the text of the served folder
    obtain ⟨c, tail, hc, hextends⟩ := hext
    obtain rfl : rest = c :: tail := by
      rw [← hcwd] at hextends
      exact List.append_cancel_left hextends
    obtain rfl : buffer' = buffer := by
      rw [hbuffer] at hbuffer'
      exact (Except.ok.inj hbuffer').symm
    obtain ⟨name, rfl⟩ := List.head?_eq_some_iff.1 hhead
    have hslash : buffer'.head? = some slash := by
      obtain ⟨behind, rfl⟩ := hstart'
      rfl
    have hother : buffer'.head? = some c := by
      obtain ⟨behind, rfl⟩ := hstart
      rfl
    rw [hslash] at hother
    exact hc (Option.some.inj hother).symm
  · intro hnot
    have hhead : (if rest = [] then [slash] else rest).head? = some slash := by
      split_ifs with hrest
      · rfl
      · obtain ⟨c, tail, rfl⟩ := List.exists_cons_of_ne_nil hrest
        by_contra hne
        refine hnot ⟨c, tail, ?_, hcwd.symm⟩
        simpa using hne
    have hback : unescapeQuotes (if rest = [] then [slash] else rest.flatMap escapeByte) =
        if rest = [] then [slash] else rest := by
      split_ifs
      · rfl
      · exact unescapeQuotes_escape rest
    exact ⟨_, _, buffer, escapedBuffer, hbuffer, hstart, hescapedBuffer, hescapedStart, hsize,
      hback, hhead, changeDirnameTo_printed hn hcwd.symm rfl hhead⟩

/-! ## Sessions -/

/-- **PWD and CWD are inverse** at any time of a session exactly when it never enters a directory
whose name extends the name of the served folder. -/
theorem alwaysPrintsBack_iff (cwk : Cwalk) (malloc : (n : ℕ) → List.Vector UInt8 n)
    (folder : RealPath) (hroot : ¬ folder.IsRoot) (commands : List Issued) :
    AlwaysPrintsBack cwk malloc folder commands ↔
      Along (sessionStep cwk) (EntersNoExtension cwk folder) (startSession folder.path)
        commands := by
  constructor
  · intro h
    rw [along_iff]
    rintro pre c post rfl arg harg hext
    have hn := normal_run cwk hroot pre
    have hpre := Path.prefix_iff.2 (.inr hext)
    have hnext := h (pre ++ [c]) post (by simp)
    rw [printsBack_iff_below (normal_run cwk hroot _), runFrom_append, runFrom_cons,
      runFrom_nil] at hnext
    -- the directory is entered
    obtain ⟨halive, hok, hdir⟩ := enteredArgument_eq_some.1 harg
    rw [sessionStep, if_pos halive] at hnext
    dsimp only at hnext
    rw [ftpProcessCommand_directory c.env hdir hok, changeDirnameTo_eq hn.toServed,
      if_pos hpre] at hnext
    exact hnext hext
  · rintro h pre post rfl
    have hinv : ∀ session c, (Normal folder session.state ∧
        ¬ Path.Extends slash folder.path session.state.currentWorkingDirectory) →
        EntersNoExtension cwk folder session c →
        Normal folder (sessionStep cwk session c).state ∧
          ¬ Path.Extends slash folder.path
            (sessionStep cwk session c).state.currentWorkingDirectory := by
      rintro session c ⟨hn, hnot⟩ henters
      refine ⟨normal_step hn, ?_⟩
      rcases session_entered cwk (c := c) hn.toServed with hcwd | ⟨arg, harg, hcwd, -⟩
      · rwa [hcwd]
      · rw [hcwd]
        exact henters arg harg
    have hstart : ¬ Path.Extends slash folder.path folder.path :=
      fun hext => Path.not_below_of_extends hext (.inl rfl)
    have hrun := Along.invariant hinv ⟨normal_start hroot, hstart⟩ (along_append.1 h).1
    exact (printsBack_iff_below hrun.1).2 hrun.2

/-- A fresh buffer of zero bytes. -/
def zeroBytes (n : ℕ) : List.Vector UInt8 n := List.Vector.replicate n 0

/-- An anonymous user enters a folder with a quotation mark in its name. -/
def intoQuoted : List Issued :=
  [⟨.user (ascii "anonymous"), quietEnv⟩, ⟨.cwd (ascii "a\"b"), quietEnv⟩,
    ⟨.pwd, quietEnv⟩, ⟨.cwd (ascii "/"), quietEnv⟩]

theorem intoQuoted_printsBack : AlwaysPrintsBack Cwalk.plain zeroBytes srvFtp intoQuoted := by
  rw [alwaysPrintsBack_iff Cwalk.plain zeroBytes srvFtp (by decide)]
  decide +kernel

/-- In the sibling `/srv/ftp2` the printed name is `2`. -/
theorem toSibling_misprints :
    ¬ AlwaysPrintsBack Cwalk.plain zeroBytes srvFtp toSibling := by
  intro h
  have hroot : ¬ srvFtp.IsRoot := by decide
  have hlast := h toSibling [] rfl
  rw [printsBack_iff_below (normal_run Cwalk.plain hroot toSibling)] at hlast
  exact hlast (by decide +kernel)

end SimpleServer.Ftp
