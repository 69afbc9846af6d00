import Mathlib.Tactic

/-!
# Absolute paths

A path is a list over an alphabet with a separator and a dot. `lexical` resolves `.` and
`..` in the order of the names, collapses separators and drops a trailing one.

* `lexical_clean`: the result has no `..` and, unless it is the root, no separator at its end.
* `lexical_length_le`: it is not longer than the path.
* `lexical_idem`, `lexical_append_sep`: a normal form is its own, and a separator behind a path
  makes no difference to it.
* `prefix_iff`: a path that starts with the letters of `top` is `top`, lies below it, or has a
  name that extends the last one of `top`.
* `names_of_below`: a path below another one has its names and further ones.
-/

namespace Lib.Path

variable {α : Type} [DecidableEq α]

/-- The names that stand between the separators. -/
def components (sep : α) (p : List α) : List (List α) := (p.splitOn sep).filter fun c => c ≠ []

/-- The names above after one more component. -/
def resolveStep (dot : α) (above : List (List α)) (c : List α) : List (List α) :=
  if c = [dot] then above else if c = [dot, dot] then above.dropLast else above ++ [c]

def resolve (dot : α) (cs : List (List α)) : List (List α) := cs.foldl (resolveStep dot) []

/-- The names, each with a separator before it. -/
def render (sep : α) (names : List (List α)) : List α := names.flatMap (sep :: ·)

/-- The absolute path with these names. -/
def absolute (sep : α) (names : List (List α)) : List α :=
  if names = [] then [sep] else render sep names

/-- The lexical normal form of an absolute path. -/
def lexical (sep dot : α) (p : List α) : List α := absolute sep (resolve dot (components sep p))

/-- The name of a file or a folder, in its parent. -/
structure IsName (sep dot : α) (c : List α) : Prop where
  nonempty : c ≠ []
  noSep : sep ∉ c
  notDot : c ≠ [dot]
  notDotDot : c ≠ [dot, dot]

instance (sep dot : α) (c : List α) : Decidable (IsName sep dot c) :=
  decidable_of_iff (c ≠ [] ∧ sep ∉ c ∧ c ≠ [dot] ∧ c ≠ [dot, dot])
    ⟨fun h => ⟨h.1, h.2.1, h.2.2.1, h.2.2.2⟩,
      fun h => ⟨h.nonempty, h.noSep, h.notDot, h.notDotDot⟩⟩

/-- A path without `..` that does not end in a separator. -/
structure Clean (sep dot : α) (p : List α) : Prop where
  noDotDot : [dot, dot] ∉ p.splitOn sep
  noTrailing : p.getLast? ≠ some sep

/-- `p` is `top`, or `top` followed by a separator and further names. -/
def Below (sep : α) (top p : List α) : Prop := p = top ∨ ∃ rest, p = top ++ sep :: rest

/-- `p` goes on after the letters of `top`, but not with a separator: the last name of `top` is
extended. -/
def Extends (sep : α) (top p : List α) : Prop := ∃ c rest, c ≠ sep ∧ p = top ++ c :: rest

variable {sep dot : α} {p top : List α} {names : List (List α)}

omit [DecidableEq α] in
theorem extends_iff :
    Extends sep top p ↔ top <+: p ∧ ∃ c ∈ (p.drop top.length).head?, c ≠ sep := by
  constructor
  · rintro ⟨c, rest, hc, rfl⟩
    exact ⟨List.prefix_append _ _, c, by simp, hc⟩
  · rintro ⟨⟨rest, rfl⟩, c, hmem, hc⟩
    rw [List.drop_left] at hmem
    obtain ⟨rest', rfl⟩ := List.head?_eq_some_iff.1 hmem
    exact ⟨c, rest', hc, rfl⟩

instance (sep : α) (top p : List α) : Decidable (Extends sep top p) :=
  decidable_of_iff _ extends_iff.symm

/-! ## Components -/

theorem not_mem_of_mem_splitOn {c : List α} (h : c ∈ p.splitOn sep) : sep ∉ c := by
  induction p generalizing c with
  | nil =>
    rw [List.splitOn_nil, List.mem_singleton] at h
    simp [h]
  | cons a p ih =>
    rw [List.splitOn_cons_eq_if_modifyHead] at h
    obtain ⟨first, rest, hsplit⟩ := List.exists_cons_of_ne_nil (List.splitOn_ne_nil sep p)
    rw [hsplit] at h ih
    by_cases ha : a = sep
    · rw [if_pos (beq_iff_eq.2 ha)] at h
      rcases List.mem_cons.1 h with rfl | h
      · exact List.not_mem_nil
      · exact ih h
    · rw [if_neg (by simpa using ha), List.modifyHead_cons] at h
      rcases List.mem_cons.1 h with rfl | h
      · have hfirst := ih List.mem_cons_self
        intro hmem
        rcases List.mem_cons.1 hmem with hmem | hmem
        · exact ha hmem.symm
        · exact hfirst hmem
      · exact ih (List.mem_cons_of_mem _ h)

theorem mem_components {c : List α} (h : c ∈ components sep p) : c ≠ [] ∧ sep ∉ c := by
  obtain ⟨hmem, hne⟩ := List.mem_filter.1 h
  exact ⟨by simpa using hne, not_mem_of_mem_splitOn hmem⟩

/-! ## Names -/

theorem resolve_isName {cs : List (List α)} (h : ∀ c ∈ cs, c ≠ [] ∧ sep ∉ c) :
    ∀ c ∈ resolve dot cs, IsName sep dot c := by
  -- the names on the stack are names at every step
  suffices hstack : ∀ above : List (List α), (∀ c ∈ above, IsName sep dot c) →
      ∀ c ∈ cs.foldl (resolveStep dot) above, IsName sep dot c from hstack [] nofun
  induction cs with
  | nil => exact fun above habove => habove
  | cons c cs ih =>
    intro above habove
    refine ih (fun c' hc' => h c' (List.mem_cons_of_mem _ hc')) _ ?_
    obtain ⟨hne, hsep⟩ := h c List.mem_cons_self
    intro c' hc'
    unfold resolveStep at hc'
    split_ifs at hc' with h1 h2
    · exact habove c' hc'
    · exact habove c' (List.mem_of_mem_dropLast hc')
    · rcases List.mem_append.1 hc' with hc' | hc'
      · exact habove c' hc'
      · rw [List.mem_singleton.1 hc']
        exact ⟨hne, hsep, h1, h2⟩

theorem render_splitOn (h : ∀ c ∈ names, sep ∉ c) :
    (render sep names).splitOn sep = [] :: names := by
  induction names with
  | nil => rfl
  | cons c names ih =>
    have hc := h c List.mem_cons_self
    have hih := ih fun c' hc' => h c' (List.mem_cons_of_mem _ hc')
    rw [show render sep (c :: names) = [] ++ sep :: (c ++ render sep names) from rfl,
      List.splitOn_append_cons_self_of_not_mem List.not_mem_nil]
    cases names with
    | nil =>
      rw [show render sep ([] : List (List α)) = [] from rfl, List.append_nil,
        List.splitOn_eq_singleton hc]
    | cons c' names =>
      rw [show render sep (c' :: names) = sep :: (c' ++ render sep names) from rfl] at hih ⊢
      rw [List.splitOn_append_cons_self_of_not_mem hc]
      rw [show sep :: (c' ++ render sep names) = [] ++ sep :: (c' ++ render sep names) from rfl,
        List.splitOn_append_cons_self_of_not_mem List.not_mem_nil] at hih
      rw [List.cons.inj hih |>.2]

theorem absolute_clean (hne : names ≠ []) (h : ∀ c ∈ names, IsName sep dot c) :
    Clean sep dot (absolute sep names) := by
  rw [absolute, if_neg hne]
  constructor
  · rw [render_splitOn fun c hc => (h c hc).noSep]
    intro hmem
    rcases List.mem_cons.1 hmem with hmem | hmem
    · cases hmem
    · exact (h _ hmem).notDotDot rfl
  · intro hsep
    obtain ⟨init, last, rfl⟩ := (List.eq_nil_or_concat' names).resolve_left hne
    have hlast := h last (by simp)
    obtain ⟨before, c, rfl⟩ := (List.eq_nil_or_concat' last).resolve_left hlast.nonempty
    have hend : (render sep (init ++ [before ++ [c]])).getLast? = some c := by
      rw [render, List.flatMap_append, List.flatMap_singleton, ← List.cons_append,
        ← List.append_assoc, List.getLast?_concat]
    rw [hend, Option.some.injEq] at hsep
    exact hlast.noSep (by simp [hsep])

omit [DecidableEq α] in
theorem absolute_head (sep : α) (names : List (List α)) :
    (absolute sep names).head? = some sep := by
  unfold absolute
  split_ifs with hnil
  · rfl
  · obtain ⟨c, names, rfl⟩ := List.exists_cons_of_ne_nil hnil
    rfl

theorem lexical_clean (h : lexical sep dot p ≠ [sep]) : Clean sep dot (lexical sep dot p) := by
  refine absolute_clean ?_ (resolve_isName fun c hc => mem_components hc)
  intro hnil
  rw [lexical, hnil] at h
  exact h rfl

/-! ## Normal forms -/

theorem resolve_names (h : ∀ c ∈ names, IsName sep dot c) : resolve dot names = names := by
  suffices hstack : ∀ above : List (List α),
      names.foldl (resolveStep dot) above = above ++ names from hstack []
  induction names with
  | nil => exact fun above => (List.append_nil above).symm
  | cons c names ih =>
    intro above
    have hc := h c List.mem_cons_self
    have hrest := ih (fun c' hc' => h c' (List.mem_cons_of_mem _ hc')) (above ++ [c])
    have hstep : resolveStep dot above c = above ++ [c] := by
      rw [resolveStep, if_neg hc.notDot, if_neg hc.notDotDot]
    rw [List.foldl_cons, hstep, hrest, List.append_assoc, List.singleton_append]

theorem components_absolute (h : ∀ c ∈ names, IsName sep dot c) :
    components sep (absolute sep names) = names := by
  unfold components absolute
  split_ifs with hnil
  · rw [hnil, List.splitOn_cons_eq_if_modifyHead, if_pos (beq_self_eq_true sep),
      List.splitOn_nil]
    simp
  · have hnonempty : ∀ c ∈ names, decide (c ≠ []) = true :=
      fun c hc => decide_eq_true (h c hc).nonempty
    rw [render_splitOn fun c hc => (h c hc).noSep, List.filter_cons_of_neg (by simp),
      List.filter_eq_self.2 hnonempty]

/-- **A normal form is its own normal form.** -/
theorem lexical_idem (p : List α) : lexical sep dot (lexical sep dot p) = lexical sep dot p := by
  have hnames : ∀ c ∈ resolve dot (components sep p), IsName sep dot c :=
    resolve_isName fun c hc => mem_components hc
  conv_lhs => rw [lexical]
  rw [lexical, components_absolute hnames, resolve_names hnames]

/-- A path made of names only is in normal form. -/
theorem lexical_absolute (h : ∀ c ∈ names, IsName sep dot c) :
    lexical sep dot (absolute sep names) = absolute sep names := by
  rw [lexical, components_absolute h, resolve_names h]

theorem lexical_append_sep (p : List α) : lexical sep dot (p ++ [sep]) = lexical sep dot p := by
  have hcomponents : components sep (p ++ [sep]) = components sep p := by
    rw [components, List.splitOn_append_cons_self, List.splitOn_nil, List.filter_append]
    simp [components]
  rw [lexical, hcomponents, lexical]

/-! ## Lengths -/

omit [DecidableEq α] in
theorem render_length (names : List (List α)) :
    (render sep names).length = (names.map fun c => c.length + 1).sum := by
  simp [render, List.length_flatMap]

theorem resolve_length_le (dot : α) (cs : List (List α)) :
    ((resolve dot cs).map fun c => c.length + 1).sum ≤ (cs.map fun c => c.length + 1).sum := by
  suffices hstack : ∀ above : List (List α),
      ((cs.foldl (resolveStep dot) above).map fun c => c.length + 1).sum ≤
        (above.map fun c => c.length + 1).sum + (cs.map fun c => c.length + 1).sum by
    rw [resolve]
    exact (hstack []).trans (by simp)
  induction cs with
  | nil => intro above; simp
  | cons c cs ih =>
    intro above
    have hstep : ((resolveStep dot above c).map fun c => c.length + 1).sum ≤
        (above.map fun c => c.length + 1).sum + (c.length + 1) := by
      unfold resolveStep
      split_ifs
      · omega
      · have hdrop : ((above.dropLast).map fun c => c.length + 1).sum ≤
            (above.map fun c => c.length + 1).sum :=
          ((List.dropLast_sublist above).map _).sum_le_sum (by simp)
        omega
      · simp
    have hrest := ih (resolveStep dot above c)
    rw [List.foldl_cons, List.map_cons, List.sum_cons]
    omega

theorem splitOn_length (sep : α) (p : List α) :
    ((p.splitOn sep).map fun c => c.length + 1).sum = p.length + 1 := by
  induction p with
  | nil => rfl
  | cons a p ih =>
    obtain ⟨first, rest, hsplit⟩ := List.exists_cons_of_ne_nil (List.splitOn_ne_nil sep p)
    rw [List.splitOn_cons_eq_if_modifyHead]
    rw [hsplit, List.map_cons, List.sum_cons] at ih
    split_ifs
    · rw [hsplit, List.map_cons, List.map_cons, List.sum_cons, List.sum_cons]
      simp only [List.length_nil, List.length_cons]
      omega
    · rw [hsplit, List.modifyHead_cons, List.map_cons, List.sum_cons]
      simp only [List.length_cons]
      omega

theorem lexical_length_le (dot : α) (h : p.head? = some sep) :
    (lexical sep dot p).length ≤ p.length := by
  obtain ⟨rest, rfl⟩ := List.head?_eq_some_iff.1 h
  unfold lexical absolute
  split_ifs with hnil
  · simp
  · have hrest : ((components sep (sep :: rest)).map fun c => c.length + 1).sum ≤
        ((rest.splitOn sep).map fun c => c.length + 1).sum := by
      rw [components, List.splitOn_cons_eq_if_modifyHead, if_pos (beq_self_eq_true sep),
        List.filter_cons_of_neg (by simp)]
      exact (List.filter_sublist.map _).sum_le_sum (by simp)
    have hresolve := resolve_length_le dot (components sep (sep :: rest))
    have hlen := splitOn_length sep rest
    rw [render_length, List.length_cons]
    omega

/-! ## Prefixes -/

/-- **A textual prefix** is not yet a boundary. -/
theorem prefix_iff : top <+: p ↔ Below sep top p ∨ Extends sep top p := by
  constructor
  · rintro ⟨rest, rfl⟩
    cases rest with
    | nil => exact .inl (.inl (List.append_nil top))
    | cons c rest =>
      by_cases hc : c = sep
      · exact .inl (.inr ⟨rest, by rw [hc]⟩)
      · exact .inr ⟨c, rest, hc, rfl⟩
  · rintro ((rfl | ⟨rest, rfl⟩) | ⟨c, rest, -, rfl⟩)
    · exact List.prefix_rfl
    · exact List.prefix_append _ _
    · exact List.prefix_append _ _

omit [DecidableEq α] in
theorem not_below_of_extends (h : Extends sep top p) : ¬ Below sep top p := by
  obtain ⟨c, rest, hc, rfl⟩ := h
  rintro (heq | ⟨rest', heq⟩)
  · simp at heq
  · rw [List.append_cancel_left_eq, List.cons.injEq] at heq
    exact hc heq.1

/-- Below a path made of names there are further names. -/
theorem names_of_below {tops : List (List α)} (htop : tops ≠ []) (hne : names ≠ [])
    (htops : ∀ c ∈ tops, IsName sep dot c) (hnames : ∀ c ∈ names, IsName sep dot c)
    (h : Below sep (absolute sep tops) (absolute sep names)) : ∃ rest, names = tops ++ rest := by
  have htopSplit := render_splitOn fun c hc => (htops c hc).noSep
  have hsplit := render_splitOn fun c hc => (hnames c hc).noSep
  rw [absolute, absolute, if_neg htop, if_neg hne] at h
  rcases h with h | ⟨rest, h⟩
  · rw [h, htopSplit] at hsplit
    exact ⟨[], by rw [List.append_nil, (List.cons.inj hsplit).2]⟩
  · rw [h, List.splitOn_append_cons_self, htopSplit] at hsplit
    exact ⟨rest.splitOn sep, ((List.cons.inj hsplit).2).symm⟩

omit [DecidableEq α] in
theorem below_append (hne : names ≠ []) (rest : List (List α)) :
    Below sep (absolute sep names) (absolute sep (names ++ rest)) := by
  have hall : names ++ rest ≠ [] := List.append_ne_nil_of_left_ne_nil hne rest
  rw [absolute, absolute, if_neg hne, if_neg hall, render, render, List.flatMap_append]
  cases rest with
  | nil => exact .inl (List.append_nil _)
  | cons c rest => exact .inr ⟨c ++ render sep rest, rfl⟩

end Lib.Path
