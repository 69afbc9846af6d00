import SimpleServer.Ftp.Calls
import SimpleServer.Proof.PassivePorts

/-!
# The clean-up of the data connections

The clean-up builds a new list from the connections it keeps, and then frees every connection of
the old list. So it does what it is for exactly when there is nothing to keep.

* `cleansUp_iff`: in any state, for any filter.
* `sound_step`: a list whose connections are in use stays one, as long as nothing is kept.
* `cleanUps_exact`: **when a clean-up leaves the other connections alone**.
-/

namespace SimpleServer.Ftp

open Lib

variable {controller : DataController} {env : CallEnv} {filter : Option Pointer} {p : Pointer}

/-! ## What is asked of a clean-up -/

/-- The connections that are to be closed and match the filter. -/
def toCloseOf (controller : DataController) (env : CallEnv) (filter : Option Pointer) :
    List Pointer :=
  closedFrom controller.memory env.now filter 0 controller.connections

def keptOf (controller : DataController) (env : CallEnv) (filter : Option Pointer) :
    List Pointer :=
  keptFrom controller.memory env.now filter 0 controller.connections

/-- The clean-up returns the descriptors of the connections that are to be closed, removes and
frees these, and leaves all others as they are. -/
structure CleansUp (controller : DataController) (env : CallEnv) (filter : Option Pointer) :
    Prop where
  returned : (ntsInternalDataConnectionsToClose controller env filter).2 =
    (toCloseOf controller env filter).map fun p => (controller.memory p).descriptor
  removed : (ntsInternalDataConnectionsToClose controller env filter).1.connections =
    keptOf controller env filter
  freed : ∀ p, (ntsInternalDataConnectionsToClose controller env filter).1.allocated p = true ↔
    controller.allocated p = true ∧ p ∉ toCloseOf controller env filter
  /-- Each of them was in use, and is freed once. -/
  freedOnce : (toCloseOf controller env filter).Nodup ∧
    ∀ p ∈ toCloseOf controller env filter, controller.allocated p = true
  others : ∀ p ∈ keptOf controller env filter,
    (ntsInternalDataConnectionsToClose controller env filter).1.allocated p = true ∧
    (ntsInternalDataConnectionsToClose controller env filter).1.memory p = controller.memory p

/-- Every connection of the list is to be closed and matches the filter. -/
def KeepsNothing (controller : DataController) (env : CallEnv) (filter : Option Pointer) : Prop :=
  ∀ (i : ℕ) (p : Pointer), controller.connections[i]? = some p →
    Due controller.memory env.now filter i p

/-- The connections of the list are in use, each is there once. -/
structure DataController.Sound (controller : DataController) : Prop where
  nodup : controller.connections.Nodup
  live : ∀ p ∈ controller.connections, controller.allocated p = true

/-! ## One clean-up -/

theorem ntsInternalDataConnectionsToClose_eq (controller : DataController) (env : CallEnv)
    (filter : Option Pointer) :
    ntsInternalDataConnectionsToClose controller env filter =
      ({ controller.free controller.connections with
          ports := (toCloseOf controller env filter).foldl (releasePort controller.memory)
            controller.ports
          connections := keptOf controller env filter },
        (toCloseOf controller env filter).map fun p => (controller.memory p).descriptor) := by
  unfold ntsInternalDataConnectionsToClose
  rw [closeLoop_eq]
  rfl

theorem keepsNothing_iff : KeepsNothing controller env filter ↔
    keptOf controller env filter = [] := by
  unfold KeepsNothing keptOf keptFrom
  rw [List.map_eq_nil_iff, List.filter_eq_nil_iff]
  constructor
  · intro h place hplace
    have hdue := h place.2 place.1 (List.mem_zipIdx_iff_getElem?.1 hplace)
    simpa using hdue
  · intro h i p hget
    have hplace : (p, i) ∈ controller.connections.zipIdx := List.mem_zipIdx_iff_getElem?.2 hget
    simpa using h (p, i) hplace

theorem KeepsNothing.toCloseOf_eq (h : KeepsNothing controller env filter) :
    toCloseOf controller env filter = controller.connections := by
  unfold toCloseOf closedFrom
  have hall : ∀ place ∈ controller.connections.zipIdx,
      decide (Due controller.memory env.now filter place.2 place.1) = true := by
    intro place hplace
    exact decide_eq_true (h place.2 place.1 (List.mem_zipIdx_iff_getElem?.1 hplace))
  rw [List.filter_eq_self.2 hall, List.zipIdx_map_fst]

/-- **When a clean-up does what is asked of it.** -/
theorem cleansUp_iff : CleansUp controller env filter ↔
    KeepsNothing controller env filter ∧ controller.Sound := by
  constructor
  · intro h
    have hkept : keptOf controller env filter = [] := by
      rw [List.eq_nil_iff_forall_not_mem]
      intro p hp
      -- it was on the old list, which is freed
      have hlive := (h.others p hp).1
      rw [ntsInternalDataConnectionsToClose_eq] at hlive
      have hmem : p ∈ controller.connections := mem_keptFrom hp
      simp [DataController.free, hmem] at hlive
    have hnothing := keepsNothing_iff.2 hkept
    obtain ⟨hnodup, hlive⟩ := h.freedOnce
    rw [hnothing.toCloseOf_eq] at hnodup hlive
    exact ⟨hnothing, hnodup, hlive⟩
  · rintro ⟨hnothing, hsound⟩
    have heq := ntsInternalDataConnectionsToClose_eq controller env filter
    refine ⟨by rw [heq], by rw [heq], ?_, ?_, ?_⟩
    · intro p
      rw [heq, hnothing.toCloseOf_eq]
      simp [DataController.free]
    · rw [hnothing.toCloseOf_eq]
      exact ⟨hsound.nodup, hsound.live⟩
    · rw [keepsNothing_iff.1 hnothing]
      intro p hp
      cases hp

/-! ## Runs -/

/-- The clean-up that a call of the controller makes. -/
def cleanUpOf (controller : DataController) :
    ControllerCall → Option (DataController × CallEnv × Option Pointer)
  | .toClose env => some (controller.refresh env, env, none)
  | .close env p =>
    let controller := controller.refresh env
    let connection := controller.memory p
    if connection.state ≠ .hasBoth ∨ connection.controlState ≠ .sending then none
    else some (controller.write p { connection with controlState := .shouldClose }, env, some p)
  | _ => none

theorem cleanUpOf_close
    (h : ¬ (((controller.refresh env).memory p).state ≠ .hasBoth ∨
      ((controller.refresh env).memory p).controlState ≠ .sending)) :
    cleanUpOf controller (.close env p) =
      some ((controller.refresh env).write p
        { (controller.refresh env).memory p with controlState := .shouldClose }, env, some p) :=
  if_neg h

/-- The clean-up of a call does what is asked of it. -/
def CleansUpAt (controller : DataController) (call : ControllerCall) : Prop :=
  ∀ cleanUp ∈ cleanUpOf controller call, CleansUp cleanUp.1 cleanUp.2.1 cleanUp.2.2

/-- A clean-up keeps nothing, and a list that has to grow can. -/
structure Undisturbed (controller : DataController) (call : ControllerCall) : Prop where
  keepsNothing : ∀ cleanUp ∈ cleanUpOf controller call,
    KeepsNothing cleanUp.1 cleanUp.2.1 cleanUp.2.2
  pushes : call.AddsConnection controller → call.pushes = true

instance (controller : DataController) (call : ControllerCall) :
    Decidable (Undisturbed controller call) :=
  decidable_of_iff
    ((∀ cleanUp ∈ cleanUpOf controller call,
        keptOf cleanUp.1 cleanUp.2.1 cleanUp.2.2 = []) ∧
      (call.AddsConnection controller → call.pushes = true))
    ⟨fun h => ⟨fun cleanUp hcleanUp => keepsNothing_iff.2 (h.1 cleanUp hcleanUp), h.2⟩,
      fun h => ⟨fun cleanUp hcleanUp => keepsNothing_iff.1 (h.keepsNothing cleanUp hcleanUp),
        h.pushes⟩⟩

theorem DataController.Sound.refresh (h : controller.Sound) (env : CallEnv) :
    (controller.refresh env).Sound := ⟨h.nodup, h.live⟩

theorem DataController.Sound.write (h : controller.Sound) (p : Pointer)
    (connection : DataConnection) : (controller.write p connection).Sound := ⟨h.nodup, h.live⟩

theorem DataController.Sound.added (h : controller.Sound) (hfresh : controller.allocated p = false)
    (connection : DataConnection) : (controller.added p connection).Sound := by
  have hnew : p ∉ controller.connections := by
    intro hp
    rw [h.live p hp] at hfresh
    cases hfresh
  constructor
  · exact List.nodup_append.2 ⟨h.nodup, List.nodup_singleton p, by
      rintro a ha b hb rfl
      rw [List.mem_singleton] at hb
      subst hb
      exact hnew ha⟩
  · intro q hq
    rcases List.mem_append.1 hq with hold | hlast
    · have hne : q ≠ p := by
        rintro rfl
        exact hnew hold
      exact (Function.update_of_ne hne ..).trans (h.live q hold)
    · rw [List.mem_singleton] at hlast
      subst hlast
      exact Function.update_self ..

theorem KeepsNothing.empty (h : KeepsNothing controller env filter) :
    (ntsInternalDataConnectionsToClose controller env filter).1.connections = [] := by
  rw [ntsInternalDataConnectionsToClose_eq]
  exact keepsNothing_iff.1 h

theorem DataController.Sound.of_empty (h : controller.connections = []) : controller.Sound := by
  refine ⟨by rw [h]; exact List.nodup_nil, ?_⟩
  intro p hp
  rw [h] at hp
  cases hp

/-- The lookup of a connection writes to its memory only. -/
theorem addDescriptor_cases (controller : DataController) (env : CallEnv) (p : Pointer)
    (descriptor : ℕ) :
    (dataControllerAddDescriptor controller env p descriptor).1 = controller.refresh env ∨
    ∃ connection, (dataControllerAddDescriptor controller env p descriptor).1 =
      (controller.refresh env).write p connection := by
  unfold dataControllerAddDescriptor
  dsimp only
  split
  · split
    · exact .inr ⟨_, rfl⟩
    · exact .inr ⟨_, rfl⟩
  · split
    · exact .inr ⟨_, rfl⟩
    · exact .inr ⟨_, rfl⟩
  · exact .inl rfl
  · exact .inl rfl

/-- **A list whose connections are in use stays one.** -/
theorem sound_step (h : controller.Sound) (call : ControllerCall)
    (hundisturbed : Undisturbed controller call) : (controllerStep controller call).Sound := by
  cases call with
  | setPortAsAvailable index port =>
    dsimp only [controllerStep]
    unfold dataConnectionSetPortAsAvailable
    split_ifs
    · exact h
    · exact ⟨h.nodup, h.live⟩
  | getAvailablePort =>
    dsimp only [controllerStep]
    unfold getAvailablePortForPassiveMode
    dsimp only
    split
    · exact h
    · exact ⟨h.nodup, h.live⟩
  | forDataThread env portIndex =>
    dsimp only [controllerStep]
    rcases forDataThread_cases controller env portIndex with
      heq | ⟨_, p, -, -, -, heq⟩ |
        ⟨metadata, hget, hadds, hpush | ⟨p, connection, hfresh, -, -, -, heq⟩⟩
    · rw [heq]
      exact h.refresh env
    · rw [heq]
      exact ⟨h.nodup, h.live⟩
    · have htrue : env.push = true := hundisturbed.pushes ⟨metadata, hget, hadds⟩
      rw [htrue] at hpush
      cases hpush
    · rw [heq]
      have hadded := (h.refresh env).added hfresh connection
      exact ⟨hadded.nodup, hadded.live⟩
  | addDescriptor env p descriptor =>
    dsimp only [controllerStep]
    rcases addDescriptor_cases controller env p descriptor with heq | ⟨connection, heq⟩
    · rw [heq]
      exact h.refresh env
    · rw [heq]
      exact (h.refresh env).write p connection
  | forControlThread env settings =>
    dsimp only [controllerStep]
    rcases forControlThread_cases controller env settings with
      heq | ⟨p, -, resumed, -, heq⟩ | ⟨hasked, hadds, hpush | ⟨p, connection, _, hfresh, -, heq, -⟩⟩
    · rw [heq]
      exact h.refresh env
    · rw [heq]
      exact (h.refresh env).write p resumed.1
    · have htrue : env.push = true := hundisturbed.pushes ⟨hasked, hadds⟩
      rw [htrue] at hpush
      cases hpush
    · rw [heq]
      exact (h.refresh env).added hfresh connection
  | getDescriptor env p =>
    dsimp only [controllerStep]
    unfold dataConnectionGetDescriptorToSendTo
    dsimp only
    split_ifs
    · exact (h.refresh env).write p _
    · exact (h.refresh env).write p _
  | close env p =>
    dsimp only [controllerStep]
    unfold dataConnectionClose
    dsimp only
    split_ifs with hstate
    · exact (h.refresh env).write p _
    · have hnothing := hundisturbed.keepsNothing _ (cleanUpOf_close hstate)
      exact .of_empty hnothing.empty
  | toClose env =>
    have hnothing := hundisturbed.keepsNothing _ rfl
    exact .of_empty hnothing.empty

theorem sound_start (passivePortAmount : ℕ) (memory : Pointer → DataConnection) :
    (initializeDataController passivePortAmount memory).Sound := .of_empty rfl

theorem cleanUpOf_sound (h : controller.Sound) {call : ControllerCall}
    {cleanUp : DataController × CallEnv × Option Pointer}
    (hcleanUp : cleanUpOf controller call = some cleanUp) : cleanUp.1.Sound := by
  cases call with
  | toClose env =>
    cases hcleanUp
    exact h.refresh env
  | close env p =>
    dsimp only [cleanUpOf] at hcleanUp
    split_ifs at hcleanUp
    cases hcleanUp
    exact (h.refresh env).write p _
  | _ => cases hcleanUp

/-- **Cleaning up one connection leaves the others alone** exactly when there are no others: in
any state, and at every clean-up of a run whose clean-ups keep nothing. -/
theorem cleanUps_exact (passivePortAmount : ℕ) (memory : Pointer → DataConnection)
    (calls : List ControllerCall) :
    (∀ controller env filter, CleansUp controller env filter ↔
      KeepsNothing controller env filter ∧ controller.Sound) ∧
    (Along controllerStep Undisturbed (initializeDataController passivePortAmount memory) calls →
      Along controllerStep CleansUpAt (initializeDataController passivePortAmount memory)
        calls) := by
  refine ⟨fun controller env filter => cleansUp_iff, ?_⟩
  intro h
  refine Along.imp (I := DataController.Sound) (fun _ call hsound => sound_step hsound call) ?_
    (sound_start passivePortAmount memory) h
  intro controller call hsound hundisturbed cleanUp hcleanUp
  have hnothing := hundisturbed.keepsNothing cleanUp hcleanUp
  exact cleansUp_iff.2 ⟨hnothing, cleanUpOf_sound hsound hcleanUp⟩

/-- A session waits for the client of its port, sends and closes the connection. -/
def oneTransfer : List ControllerCall :=
  [.setPortAsAvailable 0 2122, .getAvailablePort, .toClose (callAt 1 1 7),
    .forControlThread (callAt 1 1 7) (.passive ⟨0x7F000001, 2122⟩),
    .forDataThread (callAt 2 9 8) 0, .addDescriptor (callAt 2 9 8) 7 20,
    .forControlThread (callAt 3 1 8) (.passive ⟨0x7F000001, 2122⟩),
    .getDescriptor (callAt 3 1 8) 7, .close (callAt 4 1 8) 7, .toClose (callAt 5 9 8)]

theorem oneTransfer_cleansUp :
    Along controllerStep CleansUpAt (initializeDataController 10 noMemory) oneTransfer :=
  (cleanUps_exact 10 noMemory oneTransfer).2 (by decide +kernel)

/-- Two sessions wait for the clients of two ports, and the client of the first one connects. -/
def twoTransfers : List ControllerCall :=
  [.setPortAsAvailable 0 2122, .setPortAsAvailable 1 2123, .getAvailablePort, .getAvailablePort,
    .forControlThread (callAt 1 1 7) (.passive ⟨0x7F000001, 2122⟩),
    .forControlThread (callAt 1 2 8) (.passive ⟨0x7F000001, 2123⟩),
    .forDataThread (callAt 2 9 6) 0, .addDescriptor (callAt 2 9 6) 7 20,
    .forControlThread (callAt 3 1 6) (.passive ⟨0x7F000001, 2122⟩),
    .getDescriptor (callAt 3 1 6) 7]

/-- The first transfer is done and closes its connection: the other one is freed too. -/
theorem closingOne_freesTheOther :
    ¬ Along controllerStep CleansUpAt (initializeDataController 10 noMemory)
      (twoTransfers ++ [.close (callAt 4 1 6) 7]) := by
  intro h
  have hat := along_iff.1 h twoTransfers (.close (callAt 4 1 6) 7) [] rfl
  have hclean := hat _ (cleanUpOf_close (by decide +kernel))
  have hdue := (cleansUp_iff.1 hclean).1 1 8 (by decide +kernel)
  revert hdue
  decide +kernel

end SimpleServer.Ftp
