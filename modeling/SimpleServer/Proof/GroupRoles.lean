import SimpleServer.Generic.LinuxGroups

/-!
# The groups of a system user decide his role

The second call of `getgrouplist` is given the number of the groups as the primary group. So the
group with this number counts instead of the primary group of the user.

* `roleLoop_rank`: the loop finds the greatest role.
* `getRoleForLinuxUser_rank`: what the number of the groups does.
* `systemRole_iff`: **when a user has the role of his groups.**
-/

namespace SimpleServer.Generic

open Utils

variable {db : GroupDatabase} {username : Bytes} {group : ℕ} {groups groups' : List ℕ}
variable {role : UserRole}

/-! ## Roles of groups -/

/-- The name of a group of administrators. -/
def IsAdminName (name : Bytes) : Prop :=
  name = ascii "root" ∨ name = ascii "sudo" ∨ name = ascii "wheel"

instance (name : Bytes) : Decidable (IsAdminName name) :=
  inferInstanceAs (Decidable (_ ∨ _ ∨ _))

/-- The role is the one that the groups give: administrator by the name of a group, otherwise user
by a group with the name of the user. -/
structure RoleOfGroups (db : GroupDatabase) (username : Bytes) (groups : List ℕ) (role : UserRole) :
    Prop where
  admin : role = .admin ↔
    ∃ group ∈ groups, ∃ name, db.getGroupName group = some name ∧ IsAdminName name
  user : role = .user ↔
    (¬ ∃ group ∈ groups, ∃ name, db.getGroupName group = some name ∧ IsAdminName name) ∧
      ∃ group ∈ groups, db.getGroupName group = some username

/-- Roles in their order. -/
def UserRole.rank : UserRole → ℕ
  | .none => 0
  | .user => 1
  | .admin => 2

@[simp] theorem UserRole.rank_none : UserRole.none.rank = 0 := rfl
@[simp] theorem UserRole.rank_user : UserRole.user.rank = 1 := rfl
@[simp] theorem UserRole.rank_admin : UserRole.admin.rank = 2 := rfl

theorem UserRole.rank_injective : Function.Injective UserRole.rank := by
  intro role role' h
  cases role <;> cases role' <;> first | rfl | exact absurd h (by decide)

/-- The role that a single group gives. -/
def groupRole (db : GroupDatabase) (username : Bytes) (group : ℕ) : UserRole :=
  match db.getGroupName group with
  | none => .none
  | some name => if IsAdminName name then .admin else if name = username then .user else .none

/-- The rank of the greatest role that groups give. -/
def bestRank (db : GroupDatabase) (username : Bytes) (groups : List ℕ) : ℕ :=
  groups.foldr (fun group best => max (groupRole db username group).rank best) 0

theorem bestRank_cons (group : ℕ) (groups : List ℕ) :
    bestRank db username (group :: groups) =
      max (groupRole db username group).rank (bestRank db username groups) := rfl

theorem bestRank_le {n : ℕ} : bestRank db username groups ≤ n ↔
    ∀ group ∈ groups, (groupRole db username group).rank ≤ n := by
  induction groups with
  | nil => simp [bestRank]
  | cons group groups ih => rw [bestRank_cons, max_le_iff, ih, List.forall_mem_cons]

/-- Only the groups count, not their order and number. -/
theorem bestRank_congr (h : ∀ group, group ∈ groups ↔ group ∈ groups') :
    bestRank db username groups = bestRank db username groups' := by
  apply le_antisymm
  · rw [bestRank_le]
    intro group hgroup
    exact bestRank_le.1 le_rfl group ((h group).1 hgroup)
  · rw [bestRank_le]
    intro group hgroup
    exact bestRank_le.1 le_rfl group ((h group).2 hgroup)

theorem groupRole_admin : groupRole db username group = .admin ↔
    ∃ name, db.getGroupName group = some name ∧ IsAdminName name := by
  unfold groupRole
  cases db.getGroupName group with
  | none => simp
  | some name =>
    by_cases hadmin : IsAdminName name
    · simp [hadmin]
    · by_cases hsame : name = username <;> simp [hadmin, hsame]

theorem groupRole_user : groupRole db username group = .user →
    db.getGroupName group = some username := by
  unfold groupRole
  cases db.getGroupName group with
  | none => simp
  | some name =>
    by_cases hadmin : IsAdminName name
    · simp [hadmin]
    · by_cases hsame : name = username <;> simp [hadmin, hsame]

theorem groupRole_none (h : groupRole db username group = .none) :
    db.getGroupName group ≠ some username := by
  intro hname
  unfold groupRole at h
  rw [hname] at h
  by_cases hadmin : IsAdminName username <;> simp [hadmin] at h

theorem UserRole.two_le_rank {role : UserRole} : 2 ≤ role.rank ↔ role = .admin := by
  cases role <;> simp [UserRole.rank]

theorem UserRole.one_le_rank {role : UserRole} : 1 ≤ role.rank ↔ role ≠ .none := by
  cases role <;> simp [UserRole.rank]

theorem lt_bestRank {n : ℕ} : n < bestRank db username groups ↔
    ∃ group ∈ groups, n < (groupRole db username group).rank := by
  have h := @bestRank_le db username groups n
  constructor
  · intro hlt
    by_contra hnone
    push Not at hnone
    exact absurd (h.2 hnone) (by omega)
  · rintro ⟨group, hgroup, hrank⟩
    by_contra hle
    have hall := h.1 (by omega) group hgroup
    omega

/-- The greatest rank is the one of a group. -/
theorem exists_bestRank (h : 0 < bestRank db username groups) :
    ∃ group ∈ groups, bestRank db username groups ≤ (groupRole db username group).rank := by
  obtain ⟨group, hgroup, hrank⟩ := lt_bestRank.1 (Nat.sub_one_lt_of_lt h)
  exact ⟨group, hgroup, by omega⟩

theorem bestRank_le_two : bestRank db username groups ≤ 2 := by
  rw [bestRank_le]
  intro group _
  cases groupRole db username group <;> simp [UserRole.rank]

theorem two_le_bestRank : 2 ≤ bestRank db username groups ↔
    ∃ group ∈ groups, ∃ name, db.getGroupName group = some name ∧ IsAdminName name := by
  have h := @lt_bestRank db username groups 1
  have hiff : ∀ group, 1 < (groupRole db username group).rank ↔
      ∃ name, db.getGroupName group = some name ∧ IsAdminName name := by
    intro group
    rw [← groupRole_admin, ← UserRole.two_le_rank]
    exact Iff.rfl
  simp only [hiff] at h
  exact h

/-- Without an administrator, a group with the name of the user makes the user. -/
theorem one_le_bestRank (h : ¬ 2 ≤ bestRank db username groups) :
    1 ≤ bestRank db username groups ↔ ∃ group ∈ groups, db.getGroupName group = some username := by
  have hlt := @lt_bestRank db username groups 0
  constructor
  · intro hone
    obtain ⟨group, hgroup, hrank⟩ := hlt.1 hone
    have hnot : ¬ 2 ≤ (groupRole db username group).rank := by
      intro htwo
      exact h ((lt_bestRank (n := 1)).2 ⟨group, hgroup, htwo⟩)
    refine ⟨group, hgroup, groupRole_user ?_⟩
    cases hrole : groupRole db username group <;> simp [hrole, UserRole.rank] at hrank hnot ⊢
  · rintro ⟨group, hgroup, hname⟩
    refine hlt.2 ⟨group, hgroup, UserRole.one_le_rank.2 ?_⟩
    intro hnone
    exact groupRole_none hnone hname

/-- **The role of the groups**, by ranks. -/
theorem roleOfGroups_iff : RoleOfGroups db username groups role ↔
    role.rank = bestRank db username groups := by
  have htop := @bestRank_le_two db username groups
  have hadmin := @two_le_bestRank db username groups
  have huser := @one_le_bestRank db username groups
  constructor
  · intro h
    have hrank := h.admin
    have hrank' := h.user
    rw [← hadmin] at hrank hrank'
    by_cases htwo : 2 ≤ bestRank db username groups
    · rw [hrank.2 htwo]
      simp only [UserRole.rank_admin]
      omega
    · rw [← huser htwo] at hrank'
      cases role with
      | admin => exact absurd (hrank.1 rfl) htwo
      | user =>
        have hone := (hrank'.1 rfl).2
        simp only [UserRole.rank_user]
        omega
      | none =>
        have hone : ¬ 1 ≤ bestRank db username groups := by
          intro hone
          cases hrank'.2 ⟨htwo, hone⟩
        simp only [UserRole.rank_none]
        omega
  · intro h
    constructor
    · rw [← hadmin, ← h, UserRole.two_le_rank]
    · rw [← hadmin]
      constructor
      · rintro rfl
        have hone : bestRank db username groups = 1 := h.symm
        exact ⟨by omega, (huser (by omega)).1 (by omega)⟩
      · rintro ⟨htwo, hname⟩
        have hone := (huser htwo).2 hname
        apply UserRole.rank_injective
        show role.rank = 1
        omega

/-! ## The loop -/

theorem roleLoop_cons (group : ℕ) (groups : List ℕ) (role : UserRole) :
    roleLoop db username (group :: groups) role =
      match groupRole db username group with
      | .admin => .admin
      | .user => roleLoop db username groups .user
      | .none => roleLoop db username groups role := by
  rw [roleLoop, groupRole]
  cases hname : db.getGroupName group with
  | none => rfl
  | some name =>
    by_cases hadmin : IsAdminName name
    · have h := hadmin
      simp only [hadmin, if_true]
      rcases h with h | h | h <;> simp [h]
    · have h := hadmin
      simp only [IsAdminName, not_or] at h
      by_cases hsame : name = username
      · simp [← hsame, h, hadmin]
      · simp [h, hadmin, hsame]

/-- **The loop finds the greatest role.** -/
theorem roleLoop_rank (groups : List ℕ) : ∀ {role : UserRole}, role ≠ .admin →
    (roleLoop db username groups role).rank = max role.rank (bestRank db username groups) := by
  induction groups with
  | nil =>
    intro role _
    simp [roleLoop, bestRank]
  | cons group groups ih =>
    intro role hrole
    have hle : role.rank ≤ 1 := by
      cases role <;> simp_all [UserRole.rank]
    rw [roleLoop_cons, bestRank_cons]
    cases hgroup : groupRole db username group with
    | admin =>
      have htop := @bestRank_le_two db username groups
      simp only [UserRole.rank_admin]
      omega
    | user =>
      rw [ih (by simp)]
      simp only [UserRole.rank_user]
      omega
    | none =>
      rw [ih hrole]
      simp only [UserRole.rank_none]
      omega

/-! ## The number of the groups -/

/-- What `getgrouplist` stores: the given group and the supplementary groups of the user. -/
def GroupDatabase.Lawful (db : GroupDatabase) (supplementary : Bytes → List ℕ) : Prop :=
  ∀ username group groupId,
    groupId ∈ db.groupList username group ↔ groupId = group ∨ groupId ∈ supplementary username

variable {supplementary : Bytes → List ℕ}

theorem GroupDatabase.Lawful.bestRank (h : db.Lawful supplementary) (group : ℕ) :
    bestRank db username (db.groupList username group) =
      max (groupRole db username group).rank (bestRank db username (supplementary username)) := by
  rw [← bestRank_cons]
  apply bestRank_congr
  intro groupId
  rw [h, List.mem_cons]

/-- **The role that is found**: the number of the groups counts as a group of the user. -/
theorem getRoleForLinuxUser_rank (h : db.Lawful supplementary) (username : Bytes) (group : ℕ) :
    (getRoleForLinuxUser db username group).rank =
      if (db.groupList username (db.groupList username group).length).length ≤
          (db.groupList username group).length then
        max (groupRole db username (db.groupList username group).length).rank
          (bestRank db username (supplementary username))
      else 0 := by
  have hmem : group ∈ db.groupList username group := (h username group group).2 (.inl rfl)
  have hfirst : ¬ (db.groupList username group).length ≤ 0 := by
    have := List.length_pos_of_mem hmem
    omega
  rw [getRoleForLinuxUser]
  simp only [GroupDatabase.getgrouplist, if_neg hfirst]
  by_cases hroom : (db.groupList username (db.groupList username group).length).length ≤
      (db.groupList username group).length
  · have hres :
        ¬ (((db.groupList username (db.groupList username group).length).length : ℤ) < 0) := by
      omega
    simp only [if_pos hroom, if_neg hres, ne_eq, not_true_eq_false, if_false]
    rw [roleLoop_rank _ (by simp), h.bestRank]
    simp [UserRole.rank]
  · simp [if_neg hroom, UserRole.rank]

/-- The number of the groups does no harm: as a group it gives the same role as the primary group,
or a supplementary group outweighs both. Where the groups do not fit once it is one of them, no
group of the user gives a role. -/
def NumberHarmless (db : GroupDatabase) (supplementary : Bytes → List ℕ) (username : Bytes)
    (group : ℕ) : Prop :=
  let ngroups := (db.groupList username group).length
  if (db.groupList username ngroups).length ≤ ngroups then
    groupRole db username ngroups = groupRole db username group ∨
      ∃ other ∈ supplementary username,
        (groupRole db username ngroups).rank ≤ (groupRole db username other).rank ∧
          (groupRole db username group).rank ≤ (groupRole db username other).rank
  else ∀ other ∈ group :: supplementary username, groupRole db username other = .none

/-- **When a user has the role of his groups.** -/
theorem systemRole_iff (h : db.Lawful supplementary) (username : Bytes) (group : ℕ) :
    RoleOfGroups db username (group :: supplementary username)
        (getRoleForLinuxUser db username group) ↔
      NumberHarmless db supplementary username group := by
  rw [roleOfGroups_iff, getRoleForLinuxUser_rank h, bestRank_cons, NumberHarmless]
  by_cases hroom : (db.groupList username (db.groupList username group).length).length ≤
      (db.groupList username group).length
  · simp only [if_pos hroom]
    rw [← UserRole.rank_injective.eq_iff]
    constructor
    · intro hmax
      by_cases hsame : (groupRole db username (db.groupList username group).length).rank =
          (groupRole db username group).rank
      · exact .inl hsame
      · right
        have hpos : 0 < bestRank db username (supplementary username) := by omega
        obtain ⟨other, hother, hrank⟩ := exists_bestRank hpos
        exact ⟨other, hother, by omega, by omega⟩
    · rintro (hsame | ⟨other, hother, hnumber, hgroup⟩)
      · rw [hsame]
      · have hbest := bestRank_le.1 (le_refl (bestRank db username (supplementary username))) other
          hother
        omega
  · simp only [if_neg hroom]
    have hzero := @bestRank_le db username (group :: supplementary username) 0
    rw [bestRank_cons] at hzero
    constructor
    · intro hmax other hother
      have hrank := hzero.1 (by omega) other hother
      apply UserRole.rank_injective
      rw [UserRole.rank_none]
      omega
    · intro hnone
      have hmax := hzero.2 (by
        intro other hother
        rw [hnone other hother, UserRole.rank_none])
      omega

/-- Without supplementary groups; the primary group `100` is the one of the administrators. -/
def sudoDatabase : GroupDatabase where
  groupList _ group := [group]
  getGroupName group := if group = 100 then some (ascii "sudo") else none

theorem sudoDatabase_lawful : sudoDatabase.Lawful fun _ => [] := by
  intro username group groupId
  simp [sudoDatabase]

theorem systemRole_sudo :
    sudoDatabase.Lawful (fun _ => []) ∧
      (RoleOfGroups sudoDatabase (ascii "anna") [100]
          (getRoleForLinuxUser sudoDatabase (ascii "anna") 100) ↔
        NumberHarmless sudoDatabase (fun _ => []) (ascii "anna") 100) :=
  ⟨sudoDatabase_lawful, systemRole_iff sudoDatabase_lawful (ascii "anna") 100⟩

/-- The user of a group of administrators is none: group `1` is asked for. -/
theorem sudoGroup_lost :
    sudoDatabase.Lawful (fun _ => []) ∧
      ¬ RoleOfGroups sudoDatabase (ascii "anna") [100]
        (getRoleForLinuxUser sudoDatabase (ascii "anna") 100) := by
  refine ⟨sudoDatabase_lawful, ?_⟩
  rw [roleOfGroups_iff]
  decide

end SimpleServer.Generic
