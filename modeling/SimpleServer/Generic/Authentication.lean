import SimpleServer.Utils.Path

/-!
# Authentication providers (`generic/authentication.c`)

A provider has users of its own, with salted hashes of their passwords, or asks the system.
`authenticationProvidersFindUserWithPassword` asks all of them in their order, until one
accepts.

The hashes, the user database of the system and PAM are a parameter (`AuthEnvironment`).

* `find_best`: the answer is the best one that a provider gives.
* `find_ok_iff`: it is a user exactly when a provider accepts.
-/

namespace SimpleServer.Generic

open Utils

inductive UserRole where
  | none
  | admin
  | user
deriving Repr, DecidableEq

inductive AuthenticationProviderType where
  | simple
  | system
deriving Repr, DecidableEq

structure AuthUser where
  username : Bytes
  role : UserRole
deriving Repr, DecidableEq

structure AuthUserWithContext where
  user : AuthUser
  providerType : AuthenticationProviderType
deriving Repr, DecidableEq

inductive AuthenticationFindResult where
  | noSuchUser
  | wrongPassword
  | ok (user : AuthUserWithContext)
  | error (message : String)
deriving Repr, DecidableEq

inductive LinuxUserResponse where
  | error
  | ok (groupId : ℕ)
  | noSuchUser
deriving Repr, DecidableEq

inductive PamUserResponse where
  | error
  | ok
  | noSuchUser
deriving Repr, DecidableEq

variable {Hash : Type}

structure SimpleAccountEntry (Hash : Type) where
  hashSaltedPassword : Hash
  role : UserRole

/-- `AuthenticationProvider`; the users of a simple one are a map from their names. -/
inductive AuthenticationProvider (Hash : Type) where
  | simple (entries : Bytes → Option (SimpleAccountEntry Hash))
  | system

/-- What the providers ask. -/
structure AuthEnvironment (Hash : Type) where
  /-- `is_string_equal_to_hash_salted_string`. -/
  isStringEqualToHashSaltedString : Bytes → Hash → Bool
  checkForUserLinux : Bytes → LinuxUserResponse
  pamIsUserPasswordComboOk : Bytes → Bytes → PamUserResponse
  getRoleForLinuxUser : Bytes → ℕ → UserRole

/-! ## One provider -/

def authenticationProviderSimpleFindUserWithPassword (env : AuthEnvironment Hash)
    (entries : Bytes → Option (SimpleAccountEntry Hash)) (username password : Bytes) :
    AuthenticationFindResult :=
  match entries username with
  | none => .noSuchUser
  | some entry =>
    if env.isStringEqualToHashSaltedString (cString password) entry.hashSaltedPassword then
      .ok ⟨⟨username, entry.role⟩, .simple⟩
    else .wrongPassword

def authenticationProviderSystemFindUserWithPassword (env : AuthEnvironment Hash)
    (username password : Bytes) : AuthenticationFindResult :=
  match env.checkForUserLinux (cString username) with
  | .noSuchUser => .noSuchUser
  | .error => .error "couldn't fetch user information"
  | .ok groupId =>
    match env.pamIsUserPasswordComboOk (cString username) (cString password) with
    | .noSuchUser => .noSuchUser
    | .error => .wrongPassword
    | .ok => .ok ⟨⟨username, env.getRoleForLinuxUser (cString username) groupId⟩, .system⟩

def AuthenticationProvider.findUserWithPassword (env : AuthEnvironment Hash)
    (username password : Bytes) : AuthenticationProvider Hash → AuthenticationFindResult
  | .simple entries =>
    authenticationProviderSimpleFindUserWithPassword env entries username password
  | .system => authenticationProviderSystemFindUserWithPassword env username password

/-! ## All providers -/

def AuthenticationFindResult.isOk : AuthenticationFindResult → Bool
  | .ok _ => true
  | _ => false

def getResultValueForAuthResult : AuthenticationFindResult → ℤ
  | .noSuchUser => 1
  | .wrongPassword => 2
  | .ok _ => 3
  | .error _ => 0

def compareAuthResults (auth1 auth2 : AuthenticationFindResult) : ℤ :=
  getResultValueForAuthResult auth1 - getResultValueForAuthResult auth2

/-- The loop over the providers: the first one that accepts, or all results. -/
def collectResults (env : AuthEnvironment Hash) (username password : Bytes) :
    List (AuthenticationProvider Hash) → List AuthenticationFindResult →
      Except AuthenticationFindResult (List AuthenticationFindResult)
  | [], results => .ok results
  | provider :: providers, results =>
    let result := provider.findUserWithPassword env username password
    if result.isOk then .error result
    else collectResults env username password providers (results ++ [result])

/-- The loop over the results. -/
def bestResult (results : List AuthenticationFindResult) : AuthenticationFindResult :=
  results.foldl (fun best current => if compareAuthResults best current ≤ 0 then current else best)
    (.error "no single provider registered")

def authenticationProvidersFindUserWithPassword (env : AuthEnvironment Hash)
    (providers : List (AuthenticationProvider Hash)) (username password : Bytes) :
    AuthenticationFindResult :=
  match collectResults env username password providers [] with
  | .error result => result
  | .ok results => bestResult results

/-! ## The class of the answer -/

/-- The class of an answer, from the worst to the best. -/
inductive FindClass where
  | error
  | noSuchUser
  | wrongPassword
  | ok
deriving Repr, DecidableEq

def FindClass.value : FindClass → ℤ
  | .error => 0
  | .noSuchUser => 1
  | .wrongPassword => 2
  | .ok => 3

def AuthenticationFindResult.findClass : AuthenticationFindResult → FindClass
  | .noSuchUser => .noSuchUser
  | .wrongPassword => .wrongPassword
  | .ok _ => .ok
  | .error _ => .error

theorem resultValue_eq (result : AuthenticationFindResult) :
    getResultValueForAuthResult result = result.findClass.value := by
  cases result <;> rfl

theorem FindClass.value_injective : Function.Injective FindClass.value := by
  intro a b h
  cases a <;> cases b <;> first | rfl | exact absurd h (by decide)

theorem isOk_iff (result : AuthenticationFindResult) :
    result.isOk = true ↔ result.findClass = .ok := by
  cases result <;> simp [AuthenticationFindResult.isOk, AuthenticationFindResult.findClass]

/-- A round of the second loop keeps the better one. -/
theorem compare_step (best current : AuthenticationFindResult) :
    (if compareAuthResults best current ≤ 0 then current else best).findClass.value =
      max best.findClass.value current.findClass.value := by
  unfold compareAuthResults
  rw [resultValue_eq, resultValue_eq]
  by_cases hle : best.findClass.value - current.findClass.value ≤ 0
  · rw [if_pos hle, max_eq_right (by omega)]
  · rw [if_neg hle, max_eq_left (by omega)]

/-- The answer is the best one of the given classes, or an error where there are none. -/
structure BestAnswer (classes : List FindClass) (answer : FindClass) : Prop where
  best : ∀ c ∈ classes, c.value ≤ answer.value
  given : answer ∈ classes ∨ (classes = [] ∧ answer = .error)

theorem FindClass.value_le (c : FindClass) : 0 ≤ c.value ∧ c.value ≤ FindClass.ok.value := by
  cases c <;> decide

/-- Two best answers to the same classes are the same, in whatever order the classes come. -/
theorem BestAnswer.unique {classes classes' : List FindClass} {answer answer' : FindClass}
    (h : BestAnswer classes answer) (h' : BestAnswer classes' answer')
    (hsame : ∀ c, c ∈ classes ↔ c ∈ classes') : answer = answer' := by
  rcases h.given with hmem | ⟨rfl, rfl⟩
  · rcases h'.given with hmem' | ⟨rfl, -⟩
    · have hle := h.best answer' ((hsame _).2 hmem')
      have hge := h'.best answer ((hsame _).1 hmem)
      exact FindClass.value_injective (by omega)
    · exact absurd ((hsame _).1 hmem) List.not_mem_nil
  · rcases h'.given with hmem' | ⟨-, rfl⟩
    · exact absurd ((hsame _).2 hmem') List.not_mem_nil
    · rfl

/-- A better answer after the classes that came before. -/
theorem BestAnswer.snoc {classes : List FindClass} {answer c answer' : FindClass}
    (h : BestAnswer classes answer) (hvalue : answer'.value = max answer.value c.value) :
    BestAnswer (classes ++ [c]) answer' := by
  constructor
  · intro d hd
    rcases List.mem_append.1 hd with hd | hd
    · have := h.best d hd
      omega
    · rw [List.mem_singleton.1 hd]
      omega
  · left
    rcases le_total answer.value c.value with hle | hle
    · rw [max_eq_right hle] at hvalue
      rw [FindClass.value_injective hvalue]
      exact List.mem_append_right _ List.mem_cons_self
    · rw [max_eq_left hle] at hvalue
      rw [FindClass.value_injective hvalue]
      rcases h.given with hmem | ⟨rfl, rfl⟩
      · exact List.mem_append_left _ hmem
      · -- there was no answer yet, and the new one is an error too
        have hc := (FindClass.value_le c).1
        have herror : FindClass.error.value = 0 := rfl
        have hsame : c = .error := FindClass.value_injective (by omega)
        rw [hsame]
        exact List.mem_cons_self

theorem bestResult_best (results : List AuthenticationFindResult) :
    BestAnswer (results.map AuthenticationFindResult.findClass) (bestResult results).findClass := by
  induction results using List.reverseRecOn with
  | nil => exact ⟨fun c hc => absurd hc List.not_mem_nil, .inr ⟨rfl, rfl⟩⟩
  | append_singleton results result ih =>
    have hstep := compare_step (bestResult results) result
    rw [List.map_append]
    refine ih.snoc ?_
    rw [← hstep]
    unfold bestResult
    rw [List.foldl_append]
    rfl

theorem collectResults_spec (env : AuthEnvironment Hash) (username password : Bytes)
    (providers : List (AuthenticationProvider Hash)) (results : List AuthenticationFindResult) :
    match collectResults env username password providers results with
    | .ok all => all = results ++ providers.map (·.findUserWithPassword env username password)
    | .error result => result.isOk = true ∧
        ∃ provider ∈ providers, provider.findUserWithPassword env username password = result := by
  induction providers generalizing results with
  | nil =>
    unfold collectResults
    exact (List.append_nil results).symm
  | cons provider providers ih =>
    unfold collectResults
    dsimp only
    by_cases hok : (provider.findUserWithPassword env username password).isOk = true
    · rw [if_pos hok]
      exact ⟨hok, provider, List.mem_cons_self, rfl⟩
    · rw [if_neg hok]
      have hmore := ih (results ++ [provider.findUserWithPassword env username password])
      split at hmore
      · rw [hmore, List.map_cons, List.append_assoc]
        rfl
      · obtain ⟨haccepts, other, hmem, hother⟩ := hmore
        exact ⟨haccepts, other, List.mem_cons_of_mem _ hmem, hother⟩

/-- The classes of what the providers say. -/
def classesOf (env : AuthEnvironment Hash) (providers : List (AuthenticationProvider Hash))
    (username password : Bytes) : List FindClass :=
  providers.map fun provider => (provider.findUserWithPassword env username password).findClass

/-- **The answer is the best one** that a provider gives. -/
theorem find_best (env : AuthEnvironment Hash) (providers : List (AuthenticationProvider Hash))
    (username password : Bytes) :
    BestAnswer (classesOf env providers username password)
      (authenticationProvidersFindUserWithPassword env providers username password).findClass := by
  have hspec := collectResults_spec env username password providers []
  unfold authenticationProvidersFindUserWithPassword
  split at hspec
  · rename_i all hcollected
    rw [hcollected]
    rw [List.nil_append] at hspec
    have hbest := bestResult_best all
    rw [hspec, List.map_map] at hbest
    rw [hspec]
    exact hbest
  · rename_i result hcollected
    obtain ⟨haccepts, provider, hmem, hresult⟩ := hspec
    have hclass := (isOk_iff result).1 haccepts
    rw [hcollected]
    dsimp only
    rw [hclass]
    refine ⟨fun c _ => (FindClass.value_le c).2, .inl ?_⟩
    rw [← hclass, ← hresult]
    exact List.mem_map_of_mem hmem

/-- A provider accepts the user. -/
theorem find_ok_iff (env : AuthEnvironment Hash) (providers : List (AuthenticationProvider Hash))
    (username password : Bytes) :
    (authenticationProvidersFindUserWithPassword env providers username password).isOk = true ↔
      ∃ provider ∈ providers,
        (provider.findUserWithPassword env username password).isOk = true := by
  have hbest := find_best env providers username password
  rw [isOk_iff]
  constructor
  · intro hok
    rw [hok] at hbest
    rcases hbest.given with hmem | ⟨-, herror⟩
    · obtain ⟨provider, hprovider, hclass⟩ := List.mem_map.1 hmem
      exact ⟨provider, hprovider, (isOk_iff _).2 hclass⟩
    · cases herror
  · rintro ⟨provider, hprovider, hok⟩
    have hmem : FindClass.ok ∈ classesOf env providers username password :=
      List.mem_map.2 ⟨provider, hprovider, (isOk_iff _).1 hok⟩
    have hge := hbest.best _ hmem
    have hle := (FindClass.value_le (authenticationProvidersFindUserWithPassword env providers
      username password).findClass).2
    exact FindClass.value_injective (le_antisymm hle hge)

end SimpleServer.Generic
