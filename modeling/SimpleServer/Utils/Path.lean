import SimpleServer.Lib.Path
import SimpleServer.Utils.Bytes

/-!
# Paths (`utils/path.c`, and the cwalk functions behind it)

`cwk_path_normalize` and `cwk_path_is_absolute` belong to a library outside the repository:
`Cwalk` holds them together with what the server relies on.
-/

namespace SimpleServer.Utils

open Lib

def slash : UInt8 := 0x2F

def dot : UInt8 := 0x2E

/-- The functions of cwalk the server uses. -/
structure Cwalk where
  /-- What `cwk_path_normalize` writes into its buffer. -/
  cwkPathNormalize : Bytes → Bytes
  cwkPathIsAbsolute : Bytes → Bool
  /-- An absolute path is normalised lexically. -/
  normalize_absolute : ∀ p : Bytes, p.head? = some slash →
    cwkPathNormalize p = Path.lexical slash dot p
  /-- An absolute path starts with a separator. -/
  isAbsolute_eq : ∀ p : Bytes, p ≠ [] → cwkPathIsAbsolute p = (p.head? == some slash)

/-- The plain lexical functions. -/
def Cwalk.plain : Cwalk where
  cwkPathNormalize := Path.lexical slash dot
  cwkPathIsAbsolute p := p.head? == some slash
  normalize_absolute := fun _ _ => rfl
  isAbsolute_eq := fun _ _ => rfl

def fileIsAbsolute (cwk : Cwalk) (file : Bytes) : Bool :=
  -- a length of zero is the same as "."
  if file.length = 0 then false else cwk.cwkPathIsAbsolute file

/-- The C string in front of the first zero byte. -/
def cString (s : Bytes) : Bytes := s.takeWhile (· ≠ 0)

/-- A result of `realpath`: an absolute path made of names only. -/
structure RealPath where
  names : List Bytes
  isName : ∀ c ∈ names, Path.IsName slash dot c

def RealPath.path (folder : RealPath) : Bytes := Path.absolute slash folder.names

/-- `realpath` resolved to the root. -/
def RealPath.IsRoot (folder : RealPath) : Prop := folder.names = []

instance (folder : RealPath) : Decidable folder.IsRoot :=
  inferInstanceAs (Decidable (folder.names = []))

theorem RealPath.path_head (folder : RealPath) : folder.path.head? = some slash :=
  Path.absolute_head slash folder.names

theorem RealPath.path_clean {folder : RealPath} (h : ¬ folder.IsRoot) :
    Path.Clean slash dot folder.path :=
  Path.absolute_clean h folder.isName

/-- What starts with the text of a folder other than the root is not the root. -/
theorem RealPath.ne_root_of_prefix {folder : RealPath} {p : Bytes} (hroot : ¬ folder.IsRoot)
    (hpre : folder.path <+: p) : p ≠ [slash] := by
  intro hp
  rw [hp] at hpre
  have hlen := hpre.length_le
  obtain ⟨c, names, hnames⟩ := List.exists_cons_of_ne_nil hroot
  have hc := (folder.isName c (by rw [hnames]; exact List.mem_cons_self)).nonempty
  rw [RealPath.path, hnames, Path.absolute, if_neg (List.cons_ne_nil _ _),
    Path.render_length, List.map_cons, List.sum_cons, List.length_singleton] at hlen
  have hpos := List.length_pos_iff.2 hc
  omega

end SimpleServer.Utils
