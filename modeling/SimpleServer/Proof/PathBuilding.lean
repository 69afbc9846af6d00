import Mathlib.Data.List.TakeWhile
import SimpleServer.Http.Folder

/-!
# Gluing the path of a file together

`get_final_file_path` counts the bytes that it allocates by hand. For a relative route the count is
right, for an absolute one there is no room for the zero byte at the end.

* `writeResultPath_room`: the last byte has to be inside.
* `getFinalFilePath_built`: the string in the buffer is what is normalised.
* `buildsPath_iff`: **when the path is built inside the buffer.**
-/

namespace SimpleServer.Http

open Lib Lib.Buffer Utils

variable {data : HTTPRouteServeFolder} {routePath requestPath resultPath built : Bytes}

/-- Whatever the allocated cells hold, every write stays inside them, and the string in them is what
is glued together. -/
def BuildsPath (data : HTTPRouteServeFolder) (routePath requestPath : Bytes) : Prop :=
  ∀ resultPath : Bytes, resultPath.length = finalSize data routePath requestPath →
    ∃ built, writeResultPath data routePath requestPath resultPath = some built ∧
      cString built = gluedPath data (cString routePath) requestPath

/-- The length of what is glued together. -/
theorem gluedPath_length : (gluedPath data (cString routePath) requestPath).length =
    data.folderPath.length + requestPath.length + 1 +
      if data.type = .relative then (cString routePath).length + 1 else 0 := by
  unfold gluedPath
  cases data.type with
  | relative =>
    simp
    omega
  | absolute =>
    simp
    omega

theorem cString_notMem (text : Bytes) : 0 ∉ cString text := by
  intro hmem
  have hne := List.mem_takeWhile_imp hmem
  simp at hne

theorem cString_eq_self {text : Bytes} (h : 0 ∉ text) : cString text = text := by
  rw [cString, List.takeWhile_eq_self_iff]
  intro c hc
  exact decide_eq_true fun heq => h (heq ▸ hc)

/-- The string in a buffer that starts with a text and a zero byte. -/
theorem cString_of_starts {text buffer : Bytes} (h : text ++ [0] <+: buffer) :
    cString buffer = cString text := by
  obtain ⟨rest, rfl⟩ := h
  rw [cString, cString, List.append_assoc, List.takeWhile_append]
  split_ifs with hlength
  · have hself := (List.takeWhile_prefix (fun c : UInt8 => decide (c ≠ 0))).eq_of_length hlength
    rw [hself]
    simp
  · rfl

/-- **The zero byte at the end** has to be inside the buffer. -/
theorem writeResultPath_room
    (h : writeResultPath data routePath requestPath resultPath = some built) :
    (gluedPath data (cString routePath) requestPath).length < resultPath.length := by
  rw [gluedPath_length]
  unfold writeResultPath at h
  cases htype : data.type with
  | relative =>
    simp only [htype, Option.bind_eq_bind, Option.bind_eq_some_iff] at h
    obtain ⟨path1, h1, path2, h2, path3, h3, path4, h4, path5, h5, h6⟩ := h
    have hlen1 := memcpy_length h1
    have hlen2 := memcpy_length h2
    have hlen3 := memcpy_length h3
    have hlen4 := memcpy_length h4
    have hlen5 := memcpy_length h5
    have hroom := memcpy_room h6
    simp only [List.length_singleton] at hroom
    simp only [if_true]
    omega
  | absolute =>
    simp only [htype, Option.bind_eq_bind, Option.bind_eq_some_iff] at h
    obtain ⟨path1, h1, path2, h2, path3, h3, h4⟩ := h
    have hlen1 := memcpy_length h1
    have hlen2 := memcpy_length h2
    have hlen3 := memcpy_length h3
    have hroom := memcpy_room h4
    simp only [List.length_singleton] at hroom
    simp only [reduceCtorEq, if_false]
    omega

/-- For a relative route there is room for everything. -/
theorem writeResultPath_relative (htype : data.type = .relative)
    (hsize : resultPath.length =
      data.folderPath.length + (cString routePath).length + requestPath.length + 3) :
    ∃ built, writeResultPath data routePath requestPath resultPath = some built ∧
      gluedPath data (cString routePath) requestPath ++ [0] <+: built := by
  obtain ⟨path1, h1, hstart1, hlen1⟩ := memcpy_of_starts 0 data.folderPath
    (List.nil_prefix : [] <+: resultPath) rfl (by omega)
  obtain ⟨path2, h2, hstart2, hlen2⟩ := memcpy_of_starts data.folderPath.length [slash] hstart1
    (by simp) (by simp; omega)
  obtain ⟨path3, h3, hstart3, hlen3⟩ := memcpy_of_starts (data.folderPath.length + 1)
    (cString routePath) hstart2 (by simp) (by omega)
  obtain ⟨path4, h4, hstart4, hlen4⟩ := memcpy_of_starts
    (data.folderPath.length + 1 + (cString routePath).length) [slash] hstart3
    (by simp; omega) (by simp; omega)
  obtain ⟨path5, h5, hstart5, hlen5⟩ := memcpy_of_starts
    (data.folderPath.length + 2 + (cString routePath).length) requestPath hstart4
    (by simp; omega) (by omega)
  obtain ⟨path6, h6, hstart6, hlen6⟩ := memcpy_of_starts
    (data.folderPath.length + 2 + (cString routePath).length + requestPath.length) [0] hstart5
    (by simp; omega) (by simp; omega)
  refine ⟨path6, ?_, ?_⟩
  · simp only [writeResultPath, htype, store, h1, h2, h3, h4, h5, h6, Option.bind_eq_bind,
      Option.bind_some]
  · simpa [gluedPath, htype] using hstart6

/-- What is normalised is the string in the buffer. -/
theorem getFinalFilePath_built (cwk : Cwalk) (htype : data.type = .relative)
    (hsize : resultPath.length =
      data.folderPath.length + (cString routePath).length + requestPath.length + 3) :
    ∃ built, writeResultPath data routePath requestPath resultPath = some built ∧
      getFinalFilePath cwk data (cString routePath) requestPath =
        if (cwk.cwkPathNormalize (cString built)).length ≥ (cString built).length + 1 then none
        else some (cwk.cwkPathNormalize (cString built)) := by
  obtain ⟨built, hwrite, hstarts⟩ := writeResultPath_relative htype hsize
  refine ⟨built, hwrite, ?_⟩
  rw [getFinalFilePath, cString_of_starts hstarts]

/-- **When the path is built inside the buffer**: for a relative route, where the sizes do not wrap
around and no zero byte ends the string early. -/
theorem buildsPath_iff (data : HTTPRouteServeFolder) (routePath requestPath : Bytes) :
    BuildsPath data routePath requestPath ↔
      data.type = .relative ∧
        data.folderPath.length + (cString routePath).length + requestPath.length + 3 < 2 ^ 64 ∧
          0 ∉ data.folderPath ∧ 0 ∉ requestPath := by
  constructor
  · intro h
    obtain ⟨built, hwrite, hstring⟩ := h (List.replicate _ 0) List.length_replicate
    have hroom := writeResultPath_room hwrite
    have hzero := cString_notMem built
    rw [List.length_replicate, gluedPath_length] at hroom
    rw [hstring] at hzero
    cases htype : data.type with
    | relative =>
      have hsize : finalSize data routePath requestPath =
          (data.folderPath.length + (cString routePath).length + requestPath.length + 3) %
            2 ^ 64 := by
        rw [finalSize, htype]
      rw [hsize, htype, if_pos rfl] at hroom
      rw [gluedPath, htype] at hzero
      refine ⟨rfl, ?_, fun hin => hzero (by simp [hin]), fun hin => hzero (by simp [hin])⟩
      omega
    | absolute =>
      have hsize : finalSize data routePath requestPath =
          (data.folderPath.length + requestPath.length + 1) % 2 ^ 64 := by
        rw [finalSize, htype]
      have hle := Nat.mod_le (data.folderPath.length + requestPath.length + 1) (2 ^ 64)
      rw [hsize] at hroom
      omega
  · rintro ⟨htype, hsize, hfolder, hrequest⟩ resultPath hlength
    rw [finalSize, htype] at hlength
    dsimp only at hlength
    rw [Nat.mod_eq_of_lt hsize] at hlength
    obtain ⟨built, hwrite, hstarts⟩ := writeResultPath_relative htype hlength
    have hslash : slash ≠ 0 := by decide
    refine ⟨built, hwrite, (cString_of_starts hstarts).trans (cString_eq_self ?_)⟩
    simp [gluedPath, htype, hfolder, hrequest, cString_notMem, hslash.symm]

/-- An absolute route with an empty request path: the zero byte is written behind the buffer. -/
theorem absolutePath_overflows : ¬ BuildsPath ⟨.absolute, ascii "/srv"⟩ (ascii "/") [] := by
  intro h
  obtain ⟨built, hwrite, -⟩ := h (List.replicate 5 0) (by decide)
  have hroom := writeResultPath_room hwrite
  exact absurd hroom (by decide)

end SimpleServer.Http
