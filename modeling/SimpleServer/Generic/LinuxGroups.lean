import SimpleServer.Generic.Authentication

/-!
# The role of a system user (`get_role_for_linux_user` in `generic/authentication.c`)

`getgrouplist` is called twice, for the number of the groups and for the groups. The group database
is a parameter; there is always memory for the groups.
-/

namespace SimpleServer.Generic

open Utils

/-- The group database of the system. -/
structure GroupDatabase where
  /-- The groups that `getgrouplist` stores for a user and a group, if there is room for them. -/
  groupList : Bytes → ℕ → List ℕ
  /-- `get_group_name`. -/
  getGroupName : ℕ → Option Bytes

/-- `getgrouplist` with room for some groups: the result, the number of groups and the groups. -/
def GroupDatabase.getgrouplist (db : GroupDatabase) (username : Bytes) (group room : ℕ) :
    ℤ × ℕ × List ℕ :=
  let groups := db.groupList username group
  if groups.length ≤ room then (groups.length, groups.length, groups) else (-1, groups.length, [])

/-- The loop over the groups. -/
def roleLoop (db : GroupDatabase) (username : Bytes) : List ℕ → UserRole → UserRole
  | [], role => role
  | group :: groups, role =>
    match db.getGroupName group with
    | none => roleLoop db username groups role
    | some name =>
      if name = ascii "root" then .admin
      else if name = ascii "sudo" then .admin
      else if name = ascii "wheel" then .admin
      else if name = username then roleLoop db username groups .user
      else roleLoop db username groups role

def getRoleForLinuxUser (db : GroupDatabase) (username : Bytes) (groupId : ℕ) : UserRole :=
  let (res, ngroups, _) := db.getgrouplist username groupId 0
  if res ≠ -1 then .none
  else
    -- the number of the groups stands where the group belongs
    let (res, _, groupIds) := db.getgrouplist username ngroups ngroups
    if res < 0 then .none else roleLoop db username groupIds .none

end SimpleServer.Generic
