import SimpleServer.Http.Folder

/-!
# Listing a folder

The loop over the entries ends at a label that falls through: behind an entry that could not be read
the entries are freed and returned all the same, or freed again if the folder cannot be closed.

* `readEntries_complete`: what is read if everything can be read.
* `readEntries_eq_nil_iff`: when nothing is read.
* `listsFolder_iff`: **when a folder is listed completely or not at all.**
-/

namespace SimpleServer.Http

open Lib Utils

variable {env : FolderEnv} {folder : Bytes} {delivered : List ReadDir}

/-- The entries '.' and '..'. -/
def IsDots (name : DirName) : Prop := name.val = ascii "." ∨ name.val = ascii ".."

instance (name : DirName) : Decidable (IsDots name) := inferInstanceAs (Decidable (_ ∨ _))

/-- What `readdir` delivers could be read, and `stat` succeeds for it. -/
def Readable (env : FolderEnv) (folder : Bytes) : ReadDir → Prop
  | .failed => False
  | .entry name => IsDots name ∨ ∃ stat, env.stat (entryPath folder name.val) = .found stat

/-- The names of the entries, without '.' and '..'. -/
def listedNames (delivered : List ReadDir) : List Bytes :=
  delivered.filterMap fun event =>
    match event with
    | .entry name => if IsDots name then none else some name.val
    | .failed => none

/-- An entry with what `stat` says about it. -/
def Describes (env : FolderEnv) (folder name : Bytes) (entry : ServeFolderFolderEntry) : Prop :=
  ∃ stat, env.stat (entryPath folder name) = .found stat ∧
    entry = ⟨stat.isFolder, name, stat.date, stat.size⟩

/-- The first entry other than '.' and '..' cannot be read. -/
def FailsAtOnce (env : FolderEnv) (folder : Bytes) : List ReadDir → Prop
  | [] => False
  | .failed :: _ => True
  | .entry name :: rest =>
    if IsDots name then FailsAtOnce env folder rest else ¬ Readable env folder (.entry name)

/-- A folder is listed with one entry for each name in order, none of them released, or refused with
the entries released once. -/
structure ListsFolder (env : FolderEnv) (folder : Bytes) (hasValidParent : Bool)
    (delivered : List ReadDir) : Prop where
  complete : (∀ event ∈ delivered, Readable env folder event) →
    ∃ entries, (getServeFolderContentForFolder env folder hasValidParent).1 =
        .folder ⟨entries, hasValidParent, false⟩ ∧
      List.Forall₂ (Describes env folder) (listedNames delivered) entries
  refused : ¬ (∀ event ∈ delivered, Readable env folder event) →
    (getServeFolderContentForFolder env folder hasValidParent).1 = .serverError

theorem getFolderEntry_eq_some {name : Bytes} {entry : ServeFolderFolderEntry} :
    getFolderEntry env folder name = some entry ↔ Describes env folder name entry := by
  unfold getFolderEntry Describes
  cases env.stat (entryPath folder name) with
  | found stat => simp [eq_comm]
  | missing => simp
  | failed => simp

/-- One more entry. -/
theorem readEntries_entry (name : DirName) (rest : List ReadDir) :
    readEntries env folder (.entry name :: rest) =
      if IsDots name then readEntries env folder rest
      else
        match getFolderEntry env folder name.val with
        | none => ([], [entryPath folder name.val], false)
        | some entry =>
          (entry :: (readEntries env folder rest).1,
            entryPath folder name.val :: (readEntries env folder rest).2.1,
            (readEntries env folder rest).2.2) := rfl

/-- **If everything can be read**, the end of the folder is reached, with an entry for each name;
and otherwise it is not reached. -/
theorem readEntries_complete (env : FolderEnv) (folder : Bytes) (delivered : List ReadDir) :
    ((readEntries env folder delivered).2.2 = true ↔
        ∀ event ∈ delivered, Readable env folder event) ∧
      ((readEntries env folder delivered).2.2 = true →
        List.Forall₂ (Describes env folder) (listedNames delivered)
          (readEntries env folder delivered).1) := by
  induction delivered with
  | nil => exact ⟨by simp [readEntries], fun _ => .nil⟩
  | cons event rest ih =>
    obtain ⟨hiff, hentries⟩ := ih
    rw [List.forall_mem_cons, ← hiff]
    cases event with
    | failed => exact ⟨by simp [readEntries, Readable], by simp [readEntries]⟩
    | entry name =>
      rw [readEntries_entry]
      by_cases hdots : IsDots name
      · have hnames : listedNames (.entry name :: rest) = listedNames rest := by
          simp [listedNames, hdots]
        rw [if_pos hdots, hnames]
        exact ⟨by simp [Readable, hdots], hentries⟩
      · have hnames : listedNames (.entry name :: rest) = name.val :: listedNames rest := by
          simp [listedNames, hdots]
        rw [if_neg hdots, hnames]
        cases hentry : getFolderEntry env folder name.val with
        | none =>
          have hnot : ¬ Readable env folder (.entry name) := by
            rintro (hin | ⟨stat, hstat⟩)
            · exact hdots hin
            · rw [getFolderEntry, hstat] at hentry
              cases hentry
          simp [hnot]
        | some entry =>
          have hdescribes := getFolderEntry_eq_some.1 hentry
          obtain ⟨stat, hstat, hvalue⟩ := hdescribes
          have hreadable : Readable env folder (.entry name) := .inr ⟨stat, hstat⟩
          exact ⟨by simp [hreadable], fun hrest => .cons ⟨stat, hstat, hvalue⟩ (hentries hrest)⟩

/-- Where the end is not reached, nothing is read if the first entry fails. -/
theorem readEntries_eq_nil_iff (hend : (readEntries env folder delivered).2.2 = false) :
    (readEntries env folder delivered).1 = [] ↔ FailsAtOnce env folder delivered := by
  induction delivered with
  | nil => cases hend
  | cons event rest ih =>
    cases event with
    | failed => exact iff_of_true rfl trivial
    | entry name =>
      rw [readEntries_entry] at hend ⊢
      unfold FailsAtOnce
      by_cases hdots : IsDots name
      · rw [if_pos hdots] at hend ⊢
        rw [if_pos hdots]
        exact ih hend
      · rw [if_neg hdots, if_neg hdots]
        cases hentry : getFolderEntry env folder name.val with
        | none =>
          refine iff_of_true rfl ?_
          rintro (hin | ⟨stat, hstat⟩)
          · exact hdots hin
          · rw [getFolderEntry, hstat] at hentry
            cases hentry
        | some entry =>
          obtain ⟨stat, hstat, -⟩ := getFolderEntry_eq_some.1 hentry
          have hreadable : Readable env folder (.entry name) := .inr ⟨stat, hstat⟩
          exact iff_of_false (List.cons_ne_nil _ _) (not_not.2 hreadable)

theorem FailsAtOnce.not_readable (h : FailsAtOnce env folder delivered) :
    ¬ ∀ event ∈ delivered, Readable env folder event := by
  induction delivered with
  | nil => exact absurd h id
  | cons event rest ih =>
    rw [List.forall_mem_cons]
    cases event with
    | failed => exact fun hall => hall.1
    | entry name =>
      unfold FailsAtOnce at h
      split_ifs at h with hdots
      · exact fun hall => ih h hall.2
      · exact fun hall => h hall.1

/-- What a folder that was opened is answered with. -/
theorem contentForFolder_eq (hopen : env.opendir folder = some delivered) (hasValidParent : Bool) :
    (getServeFolderContentForFolder env folder hasValidParent).1 =
      if env.closedir folder then
        .folder ⟨(readEntries env folder delivered).1, hasValidParent,
          !(readEntries env folder delivered).2.2⟩
      else if ¬ (readEntries env folder delivered).2.2 = true ∧
          (readEntries env folder delivered).1 ≠ [] then
        .freedTwice
      else .serverError := by
  unfold getServeFolderContentForFolder
  rw [hopen]
  dsimp only
  by_cases hclose : env.closedir folder = true
  · rw [if_neg (not_not.2 hclose), if_pos hclose]
  · rw [if_pos hclose, if_neg hclose]
    split_ifs
    · rfl
    · rfl

/-- **When a folder is listed completely or refused**: if every entry can be read, and the folder
can be closed, or if the first one cannot be read and the folder cannot be closed. -/
theorem listsFolder_iff (hopen : env.opendir folder = some delivered) (hasValidParent : Bool) :
    ListsFolder env folder hasValidParent delivered ↔
      (∀ event ∈ delivered, Readable env folder event) ∧ env.closedir folder = true ∨
        FailsAtOnce env folder delivered ∧ env.closedir folder = false := by
  obtain ⟨hiff, hentries⟩ := readEntries_complete env folder delivered
  have hresult := contentForFolder_eq hopen hasValidParent
  constructor
  · rintro ⟨hcomplete, hrefused⟩
    by_cases hall : ∀ event ∈ delivered, Readable env folder event
    · obtain ⟨entries, hfolder, -⟩ := hcomplete hall
      rw [hresult] at hfolder
      left
      refine ⟨hall, ?_⟩
      by_contra hclose
      rw [if_neg hclose] at hfolder
      split_ifs at hfolder
    · have herror := hrefused hall
      have hend : ¬ (readEntries env folder delivered).2.2 = true := mt hiff.1 hall
      rw [hresult] at herror
      right
      split_ifs at herror with hclose htwice
      refine ⟨?_, Bool.not_eq_true _ ▸ hclose⟩
      rw [← readEntries_eq_nil_iff (Bool.not_eq_true _ ▸ hend)]
      by_contra hsome
      exact htwice ⟨hend, hsome⟩
  · rintro (⟨hall, hclose⟩ | ⟨hfails, hclose⟩)
    · have hend := hiff.2 hall
      refine ⟨fun _ => ⟨_, ?_, hentries hend⟩, fun hnot => absurd hall hnot⟩
      rw [hresult, if_pos hclose, hend]
      rfl
    · refine ⟨fun hall => absurd hall hfails.not_readable, fun hnot => ?_⟩
      have hend : ¬ (readEntries env folder delivered).2.2 = true := mt hiff.1 hnot
      have hnothing := (readEntries_eq_nil_iff (Bool.not_eq_true _ ▸ hend)).2 hfails
      rw [hresult, hclose, if_neg Bool.false_ne_true, if_neg fun htwice => htwice.2 hnothing]

/-- A file system with a folder of two entries, the second of which may be a dangling link. -/
def twoEntries (dangling : Bool) : FolderEnv where
  stat path :=
    if path = ascii "/srv/b" ∧ dangling then .missing else .found ⟨false, 0, 1⟩
  getFileSizeOfFile _ := some 1
  readEntireFile _ := some (ascii "x")
  opendir _ := some [.entry ⟨ascii "a", by decide⟩, .entry ⟨ascii ".", by decide⟩,
    .entry ⟨ascii "b", by decide⟩]
  closedir _ := true
  getMimeTypeForExt _ := ascii "text/plain"

/-- Both entries are listed. -/
theorem listsFolder_two : ListsFolder (twoEntries false) (ascii "/srv") false
    [.entry ⟨ascii "a", by decide⟩, .entry ⟨ascii ".", by decide⟩,
      .entry ⟨ascii "b", by decide⟩] := by
  refine (listsFolder_iff rfl false).2 (.inl ⟨?_, rfl⟩)
  simp [Readable, IsDots, twoEntries]

/-- A dangling link: the folder is returned with the entries that were freed. -/
theorem danglingLink_returned : ¬ ListsFolder (twoEntries true) (ascii "/srv") false
    [.entry ⟨ascii "a", by decide⟩, .entry ⟨ascii ".", by decide⟩,
      .entry ⟨ascii "b", by decide⟩] := by
  intro h
  have hnot : ¬ ∀ event ∈ [ReadDir.entry ⟨ascii "a", by decide⟩, .entry ⟨ascii ".", by decide⟩,
      .entry ⟨ascii "b", by decide⟩], Readable (twoEntries true) (ascii "/srv") event := by
    intro hall
    rcases hall (.entry ⟨ascii "b", by decide⟩) (by simp) with (hdot | hdots) | ⟨stat, hstat⟩
    · exact absurd hdot (by decide)
    · exact absurd hdots (by decide)
    · cases hstat
  have herror := h.refused hnot
  exact absurd herror (by decide)

end SimpleServer.Http
