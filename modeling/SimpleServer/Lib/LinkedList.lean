import Mathlib.Tactic

/-!
# Linked lists in memory

Memory holds cells at addresses. A cell has a value and the address of the next cell.

* `Segment`: the cells from one address up to another, with their values.
* `segment_append`: a segment is cut at any of its cells.
* `Segment.congr`: memory outside of a segment does not matter.
* `Segment.relink`: the last cell of a segment gets a new successor.
* `Segment.insertLast`, `Segment.unlink`: **a cell more and a cell less.**
-/

namespace Lib.LinkedList

variable {α β γ : Type*}

/-- What a cell is made of. -/
structure View (α β γ : Type*) where
  value : β → γ
  next : β → Option α

variable {view : View α β γ} {memory memory' : α → Option β} {p q : Option α}
  {cells cells' : List (α × γ)} {a : α} {v : γ} {b : β}

/-- The cells from `p` up to `q`: their addresses and their values. -/
def Segment (view : View α β γ) (memory : α → Option β) : Option α → List (α × γ) → Option α → Prop
  | p, [], q => p = q
  | p, (a, v) :: cells, q =>
    p = some a ∧ ∃ b, memory a = some b ∧ view.value b = v ∧
      Segment view memory (view.next b) cells q

@[simp] theorem segment_nil : Segment view memory p [] q ↔ p = q := Iff.rfl

theorem segment_append :
    Segment view memory p (cells ++ cells') q ↔
      ∃ r, Segment view memory p cells r ∧ Segment view memory r cells' q := by
  induction cells generalizing p with
  | nil => simp
  | cons cell cells ih =>
    simp only [List.cons_append, Segment, ih]
    constructor
    · rintro ⟨hp, b, hb, hv, r, hfirst, hrest⟩
      exact ⟨r, ⟨hp, b, hb, hv, hfirst⟩, hrest⟩
    · rintro ⟨r, ⟨hp, b, hb, hv, hfirst⟩, hrest⟩
      exact ⟨hp, b, hb, hv, r, hfirst, hrest⟩

/-- A segment that starts somewhere. -/
theorem Segment.exists_of_start (h : Segment view memory (some a) cells none) :
    ∃ b rest, memory a = some b ∧ cells = (a, view.value b) :: rest ∧
      Segment view memory (view.next b) rest none := by
  rcases cells with _ | ⟨cell, rest⟩
  · cases h
  · obtain ⟨hp, b, hb, hv, hrest⟩ := h
    have ha : a = cell.1 := Option.some.inj hp
    refine ⟨b, rest, by rw [ha, hb], ?_, hrest⟩
    rw [hv, ha]

theorem Segment.nil_of_none (h : Segment view memory none cells none) : cells = [] := by
  rcases cells with _ | ⟨cell, rest⟩
  · rfl
  · cases h.1

/-- The cells of a segment lie in memory. -/
theorem Segment.mem (h : Segment view memory p cells q) {cell : α × γ} (hcell : cell ∈ cells) :
    ∃ b, memory cell.1 = some b ∧ view.value b = cell.2 := by
  induction cells generalizing p with
  | nil => cases hcell
  | cons first cells ih =>
    obtain ⟨-, b, hb, hv, hrest⟩ := h
    rcases List.mem_cons.1 hcell with rfl | hcell
    · exact ⟨b, hb, hv⟩
    · exact ih hrest hcell

/-- **Memory outside of a segment** does not matter. -/
theorem Segment.congr (h : Segment view memory p cells q)
    (hsame : ∀ cell ∈ cells, memory' cell.1 = memory cell.1) :
    Segment view memory' p cells q := by
  induction cells generalizing p with
  | nil => exact h
  | cons first cells ih =>
    obtain ⟨hp, b, hb, hv, hrest⟩ := h
    refine ⟨hp, b, ?_, hv, ih hrest fun cell hcell => hsame cell (List.mem_cons_of_mem _ hcell)⟩
    rw [hsame first (List.mem_cons_self ..), hb]

theorem Segment.update [DecidableEq α] (h : Segment view memory p cells q)
    (ha : a ∉ cells.map Prod.fst) (cell : Option β) :
    Segment view (Function.update memory a cell) p cells q :=
  h.congr fun other hother => Function.update_of_ne
    (fun heq => ha (List.mem_map.2 ⟨other, hother, heq⟩)) ..

/-- **The last cell** of a segment gets a new successor. -/
theorem Segment.relink [DecidableEq α] (h : Segment view memory p (cells ++ [(a, v)]) q)
    (ha : a ∉ cells.map Prod.fst) {b' : β} (hvalue : view.value b' = v) :
    Segment view (Function.update memory a (some b')) p (cells ++ [(a, v)]) (view.next b') := by
  obtain ⟨r, hfirst, hlast⟩ := segment_append.1 h
  refine segment_append.2 ⟨r, hfirst.update ha _, hlast.1, b', Function.update_self .., hvalue, ?_⟩
  exact rfl

/-- The address of the last cell is the one that was reached before the end. -/
theorem exists_append_of_getLast? (h : (cells.map Prod.fst).getLast? = some a) :
    ∃ before v, cells = before ++ [(a, v)] := by
  rcases List.eq_nil_or_concat cells with rfl | ⟨before, cell, rfl⟩
  · cases h
  · rw [List.concat_eq_append, List.map_append, List.map_singleton, List.getLast?_concat] at h
    exact ⟨before, cell.2, by rw [← Option.some.inj h, List.concat_eq_append]⟩

theorem eq_nil_of_getLast? (h : (cells.map Prod.fst).getLast? = none) : cells = [] :=
  List.map_eq_nil_iff.1 (List.getLast?_eq_none_iff.1 h)

/-- **A cell more**, behind the last one. -/
theorem Segment.insertLast [DecidableEq α] {c : α} {w : γ} {d : β}
    (h : Segment view memory p (cells ++ [(c, w)]) q)
    (hc : c ∉ cells.map Prod.fst) (ha : a ∉ (cells ++ [(c, w)]).map Prod.fst)
    (hvalue : view.value d = w) (hnext : view.next d = some a)
    (hv : view.value b = v) :
    Segment view (Function.update (Function.update memory a (some b)) c (some d)) p
      (cells ++ [(c, w)] ++ [(a, v)]) (view.next b) := by
  have hfirst := (h.update ha (some b)).relink hc hvalue
  have hne : a ≠ c := fun heq => ha (by
    rw [heq, List.map_append, List.mem_append]
    exact .inr (List.mem_singleton.2 rfl))
  refine segment_append.2 ⟨view.next d, hfirst, hnext, b, ?_, hv, rfl⟩
  rw [Function.update_of_ne hne, Function.update_self]

/-- The first cell less. -/
theorem Segment.unlinkFirst [DecidableEq α] (h : Segment view memory p ((a, v) :: cells) q)
    (ha : a ∉ cells.map Prod.fst) (hb : memory a = some b) :
    Segment view (Function.update memory a none) (view.next b) cells q := by
  obtain ⟨-, b', hb', -, hrest⟩ := h
  rw [hb] at hb'
  rw [← Option.some.inj hb'] at hrest
  exact hrest.update ha none

/-- **A cell less**, behind another one. -/
theorem Segment.unlink [DecidableEq α] {c : α} {w : γ} {d : β}
    (h : Segment view memory p (cells ++ [(c, w)] ++ (a, v) :: cells') q)
    (hnodup : ((cells ++ [(c, w)] ++ (a, v) :: cells').map Prod.fst).Nodup)
    (hb : memory a = some b) (hvalue : view.value d = w) (hnext : view.next d = view.next b) :
    Segment view (Function.update (Function.update memory c (some d)) a none) p
      (cells ++ [(c, w)] ++ cells') q := by
  obtain ⟨r, hfirst, hrest⟩ := segment_append.1 h
  simp only [List.map_append, List.map_cons, List.map_nil, List.nodup_append, List.nodup_cons,
    List.mem_append, List.mem_cons, List.not_mem_nil, or_false] at hnodup
  obtain ⟨⟨-, -, hc⟩, ⟨ha', -⟩, hdisjoint⟩ := hnodup
  have hcells : c ∉ cells.map Prod.fst := fun hmem => hc c hmem c rfl rfl
  have hbefore : a ∉ (cells ++ [(c, w)]).map Prod.fst := fun hmem =>
    hdisjoint a (by simpa using hmem) a (.inl rfl) rfl
  have hafter : c ∉ cells'.map Prod.fst := fun hmem => hdisjoint c (.inr rfl) c (.inr hmem) rfl
  have hlink := (hfirst.relink hcells hvalue).update hbefore none
  rw [hnext] at hlink
  obtain ⟨-, b', hb', -, htail⟩ := hrest
  rw [hb] at hb'
  rw [← Option.some.inj hb'] at htail
  exact segment_append.2 ⟨_, hlink, (htail.update hafter _).update ha' none⟩

end Lib.LinkedList
