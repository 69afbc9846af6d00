import SimpleServer.Proof.CleanUp

/-!
# What holds between two calls of the data controller

A connection has a descriptor in the two states that say so, no two connections of the list are
for the same client, and a port knows the connection of the list it is used for. All calls keep
that, but for a few of their exits: an active connection that is there at once gets no
descriptor, a descriptor may come without its state, and the clean-up frees what it keeps.

* `ControllerInv`: what holds, with what it needs to be kept.
* `controllerInv_step`: **every other call keeps it**.
* `staysConsistent_of_along`: over a whole run.
-/

namespace SimpleServer.Ftp

open Lib

variable {controller : DataController} {env : CallEnv} {p : Pointer}
  {connection : DataConnection}

/-! ## What is asked -/

/-- There is a descriptor exactly in the states that say so. -/
def DataConnection.Matches (connection : DataConnection) : Prop :=
  connection.descriptor ≠ none ↔ connection.state = .hasDescriptor ∨ connection.state = .hasBoth

structure Consistent (controller : DataController) : Prop where
  descriptor : ∀ p ∈ controller.connections, (controller.memory p).Matches
  identifiers : (controller.connections.map fun p => (controller.memory p).identifier).Nodup
  associated : ∀ (i : ℕ) (metadata : PortMetadata), controller.ports[i]? = some metadata →
    ∀ p, metadata.associatedConnection = some p →
      p ∈ controller.connections ∧ (controller.memory p).identifier = .passive metadata.port

/-- A connection that a control thread is given has a descriptor. -/
def GivesDescriptor (controller : DataController) : ControllerCall → Prop
  | .forControlThread env settings => ∀ p,
    (getDataConnectionForControlThreadOrAdd controller env settings).2 = some p →
    ((getDataConnectionForControlThreadOrAdd controller env settings).1.memory p).descriptor ≠ none
  | _ => True

/-- The controller is consistent at the start and after every call of the run, and control
threads are given connections with a descriptor. -/
def StaysConsistent (passivePortAmount : ℕ) (memory : Pointer → DataConnection)
    (calls : List ControllerCall) : Prop :=
  Consistent (initializeDataController passivePortAmount memory) ∧
  Along controllerStep
    (fun controller call =>
      Consistent (controllerStep controller call) ∧ GivesDescriptor controller call)
    (initializeDataController passivePortAmount memory) calls

/-- The ports are used as the listener threads use them: each has its own number, which is set
before a client connects. -/
def PortsInOrder (controller : DataController) : ControllerCall → Prop
  | .setPortAsAvailable index _ => ∀ metadata ∈ controller.ports[index]?,
    metadata.associatedConnection = none
  | .forDataThread _ portIndex => ∀ metadata ∈ controller.ports[portIndex]?,
    ∀ other ∈ controller.ports.zipIdx, other.1.port = metadata.port → other.2 = portIndex
  | _ => True

/-- The clock can be read when a descriptor is added. -/
def Timed (controller : DataController) : ControllerCall → Prop
  | .addDescriptor env p _ => p ∈ controller.connections →
    (controller.memory p).state = .empty ∨ (controller.memory p).state = .hasAssociatedControl →
    env.now 0 ≠ none
  | _ => True

/-- A new active connection is not there at once. -/
def NotAtOnce (controller : DataController) : ControllerCall → Prop
  | .forControlThread env settings =>
    (ControllerCall.forControlThread env settings).AddsConnection controller →
    ¬ ConnectsAtOnce env (ntsInternalConnIdentifierFromSettings settings)
  | _ => True

/-- The call takes none of the exits after which the controller is not consistent. -/
structure Orderly (controller : DataController) (call : ControllerCall) : Prop extends
    Undisturbed controller call where
  ports : PortsInOrder controller call
  timed : Timed controller call
  notAtOnce : NotAtOnce controller call

instance (controller : DataController) (call : ControllerCall) :
    Decidable (PortsInOrder controller call) :=
  match call with
  | .setPortAsAvailable _ _ =>
    inferInstanceAs (Decidable (∀ metadata ∈ controller.ports[_]?, _))
  | .forDataThread _ _ => inferInstanceAs (Decidable (∀ metadata ∈ controller.ports[_]?, _))
  | .getAvailablePort | .addDescriptor _ _ _ | .forControlThread _ _ | .getDescriptor _ _
  | .close _ _ | .toClose _ => isTrue trivial

instance (controller : DataController) (call : ControllerCall) :
    Decidable (Timed controller call) :=
  match call with
  | .addDescriptor _ _ _ => inferInstanceAs (Decidable (_ → _ → _))
  | .setPortAsAvailable _ _ | .getAvailablePort | .forDataThread _ _ | .forControlThread _ _
  | .getDescriptor _ _ | .close _ _ | .toClose _ => isTrue trivial

instance (controller : DataController) (call : ControllerCall) :
    Decidable (NotAtOnce controller call) :=
  match call with
  | .forControlThread _ _ => inferInstanceAs (Decidable (_ → _))
  | .setPortAsAvailable _ _ | .getAvailablePort | .forDataThread _ _ | .addDescriptor _ _ _
  | .getDescriptor _ _ | .close _ _ | .toClose _ => isTrue trivial

instance (controller : DataController) (call : ControllerCall) :
    Decidable (Orderly controller call) :=
  decidable_of_iff (Undisturbed controller call ∧ PortsInOrder controller call ∧
      Timed controller call ∧ NotAtOnce controller call)
    ⟨fun h => ⟨h.1, h.2.1, h.2.2.1, h.2.2.2⟩,
      fun h => ⟨h.toUndisturbed, h.ports, h.timed, h.notAtOnce⟩⟩

/-! ## The invariant -/

/-- No port shares its connection with another one. -/
def Alone (ports : List PortMetadata) : Prop :=
  ∀ (i j : ℕ) (metadata metadata' : PortMetadata) (p : Pointer),
    ports[i]? = some metadata → ports[j]? = some metadata' →
    metadata.associatedConnection = some p → metadata'.associatedConnection = some p → i = j

/-- The controller is consistent, its connections are in use, and no two ports are used for the
same connection. -/
structure ControllerInv (controller : DataController) : Prop extends
    controller.Sound, Consistent controller where
  alone : Alone controller.ports

theorem refresh_memory (h : controller.Sound) (hp : p ∈ controller.connections) (env : CallEnv) :
    (controller.refresh env).memory p = controller.memory p := if_pos (h.live p hp)

theorem ControllerInv.refresh (h : ControllerInv controller) (env : CallEnv) :
    ControllerInv (controller.refresh env) := by
  have hmemory : ∀ p ∈ controller.connections,
      (controller.refresh env).memory p = controller.memory p :=
    fun p hp => refresh_memory h.toSound hp env
  refine ⟨h.toSound.refresh env, ⟨?_, ?_, ?_⟩, h.alone⟩
  · intro p hp
    rw [hmemory p hp]
    exact h.descriptor p hp
  · have hmap : (controller.connections.map fun p => ((controller.refresh env).memory p).identifier)
        = controller.connections.map fun p => (controller.memory p).identifier := by
      refine List.map_congr_left ?_
      intro p hp
      rw [hmemory p hp]
    exact hmap ▸ h.identifiers
  · intro i metadata hget p hp
    obtain ⟨hmem, hidentifier⟩ := h.associated i metadata hget p hp
    rw [hmemory p hmem]
    exact ⟨hmem, hidentifier⟩

/-- A write to a connection that leaves its identifier. -/
theorem ControllerInv.write (h : ControllerInv controller)
    (hidentifier : connection.identifier = (controller.memory p).identifier)
    (hmatches : p ∈ controller.connections → connection.Matches) :
    ControllerInv (controller.write p connection) := by
  have hsame : ∀ q, ((controller.write p connection).memory q).identifier =
      (controller.memory q).identifier := by
    intro q
    dsimp only [DataController.write]
    by_cases hq : q = p
    · subst hq
      rw [Function.update_self]
      exact hidentifier
    · rw [Function.update_of_ne hq]
  refine ⟨h.toSound.write p connection, ⟨?_, ?_, ?_⟩, h.alone⟩
  · intro q hq
    dsimp only [DataController.write]
    by_cases heq : q = p
    · subst heq
      rw [Function.update_self]
      exact hmatches hq
    · rw [Function.update_of_ne heq]
      exact h.descriptor q hq
  · simp only [hsame]
    exact h.identifiers
  · intro i metadata hget q hq
    rw [hsame]
    exact h.associated i metadata hget q hq

/-- A connection for a client that has none in the list. -/
theorem ControllerInv.added (h : ControllerInv controller)
    (hfresh : controller.allocated p = false) (hmatches : connection.Matches)
    (hnew : ∀ q ∈ controller.connections,
      (controller.memory q).identifier ≠ connection.identifier) :
    ControllerInv (controller.added p connection) := by
  -- the memory of the others is untouched
  have hother : ∀ q ∈ controller.connections,
      (controller.added p connection).memory q = controller.memory q := by
    intro q hq
    refine Function.update_of_ne ?_ _ _
    rintro rfl
    rw [h.live q hq] at hfresh
    cases hfresh
  refine ⟨h.toSound.added hfresh connection, ⟨?_, ?_, ?_⟩, h.alone⟩
  · intro q hq
    rcases List.mem_append.1 hq with hold | hlast
    · rw [hother q hold]
      exact h.descriptor q hold
    · obtain rfl := List.mem_singleton.1 hlast
      rw [added_memory]
      exact hmatches
  · have hmap : (controller.added p connection).connections.map
        (fun q => ((controller.added p connection).memory q).identifier) =
        (controller.connections.map fun q => (controller.memory q).identifier) ++
          [connection.identifier] := by
      rw [show (controller.added p connection).connections = controller.connections ++ [p] from rfl,
        List.map_append, List.map_singleton, added_memory]
      congr 1
      refine List.map_congr_left ?_
      intro q hq
      rw [hother q hq]
    rw [hmap, List.nodup_append]
    refine ⟨h.identifiers, List.nodup_singleton _, ?_⟩
    rintro a ha b hb rfl
    obtain rfl := List.mem_singleton.1 hb
    obtain ⟨q, hq, heq⟩ := List.mem_map.1 ha
    exact hnew q hq heq
  · intro i metadata hget q hq
    obtain ⟨hmem, hidentifier⟩ := h.associated i metadata hget q hq
    rw [hother q hmem]
    exact ⟨List.mem_append_left _ hmem, hidentifier⟩

/-- A port that had no connection may get the one for its number. -/
theorem ControllerInv.associate (h : ControllerInv controller) {index : ℕ}
    {metadata : PortMetadata} (hget : controller.ports[index]? = some metadata)
    (hp : p ∈ controller.connections)
    (hidentifier : (controller.memory p).identifier = .passive metadata.port)
    (hown : ∀ other ∈ controller.ports.zipIdx, other.1.port = metadata.port → other.2 = index) :
    ControllerInv { controller with ports := associatePort index p controller.ports } := by
  -- an entry is as before, or it is the one that gets the connection
  have hentry : ∀ (i : ℕ) (metadata' : PortMetadata) (q : Pointer),
      (associatePort index p controller.ports)[i]? = some metadata' →
      metadata'.associatedConnection = some q →
      controller.ports[i]? = some metadata' ∨
        (i = index ∧ q = p ∧ metadata'.port = metadata.port) := by
    intro i metadata' q hget' hq
    unfold associatePort at hget'
    obtain ⟨old, hold, ⟨rfl, rfl⟩ | ⟨-, rfl⟩⟩ := getElem?_modify_cases hget'
    · rw [hget] at hold
      cases hold
      by_cases hnone : metadata.associatedConnection = none
      · rw [if_pos hnone] at hq ⊢
        exact .inr ⟨rfl, (Option.some.inj hq).symm, rfl⟩
      · rw [if_neg hnone]
        exact .inl hget
    · exact .inl hold
  -- what was used for the connection had the same number
  have hsame : ∀ (i : ℕ) (metadata' : PortMetadata), controller.ports[i]? = some metadata' →
      metadata'.associatedConnection = some p → i = index := by
    intro i metadata' hget' hassociated
    obtain ⟨-, hpassive⟩ := h.associated i metadata' hget' p hassociated
    rw [hidentifier] at hpassive
    exact hown (metadata', i) (List.mem_zipIdx_iff_getElem?.2 hget')
      (ConnectionTypeIdentifier.passive.inj hpassive).symm
  refine ⟨⟨h.nodup, h.live⟩, ⟨h.descriptor, h.identifiers, ?_⟩, ?_⟩
  · intro i metadata' hget' q hq
    rcases hentry i metadata' q hget' hq with hold | ⟨-, rfl, hport⟩
    · exact h.associated i metadata' hold q hq
    · rw [hport]
      exact ⟨hp, hidentifier⟩
  · intro i j metadata' metadata'' q hgeti hgetj hi hj
    rcases hentry i metadata' q hgeti hi with holdi | ⟨rfl, rfl, -⟩
    · rcases hentry j metadata'' q hgetj hj with holdj | ⟨rfl, rfl, -⟩
      · exact h.alone i j metadata' metadata'' q holdi holdj hi hj
      · exact hsame i metadata' holdi hi
    · rcases hentry j metadata'' q hgetj hj with holdj | ⟨rfl, -, -⟩
      · exact (hsame j metadata'' holdj hj).symm
      · rfl

/-! ## The clean-up -/

variable {ports : List PortMetadata} {memory : Pointer → DataConnection}

/-- The port of a connection that is closed has no connection, the others are as before. -/
theorem deallocPort_entry (halone : Alone ports) {i : ℕ} {metadata : PortMetadata} {q : Pointer}
    (hget : (deallocPort p ports)[i]? = some metadata)
    (hq : metadata.associatedConnection = some q) : ports[i]? = some metadata ∧ q ≠ p := by
  unfold deallocPort at hget
  obtain ⟨old, hold, ⟨-, rfl⟩ | ⟨hne, rfl⟩⟩ := getElem?_modify_cases hget
  · cases hq
  · refine ⟨hold, ?_⟩
    rintro rfl
    -- the first port with this connection is the only one
    obtain ⟨hlt, hfound⟩ := List.getElem?_eq_some_iff.1 hold
    have hfirst : ports.findIdx (fun metadata => metadata.associatedConnection == some q) <
        ports.length := by
      refine List.findIdx_lt_length_of_exists ⟨metadata, List.mem_of_getElem? hold, ?_⟩
      rw [hq]
      exact beq_self_eq_true _
    have hassociated := List.findIdx_getElem (w := hfirst)
    exact hne (halone i _ metadata _ q hold (List.getElem?_eq_getElem hfirst) hq
      (by simpa using hassociated))

theorem releasePort_entry (halone : Alone ports) {i : ℕ} {metadata : PortMetadata} {q : Pointer}
    (hget : (releasePort memory ports p)[i]? = some metadata)
    (hq : metadata.associatedConnection = some q) :
    ports[i]? = some metadata ∧ (q = p → ∀ port, (memory p).identifier ≠ .passive port) := by
  unfold releasePort at hget
  cases hidentifier : (memory p).identifier with
  | passive port =>
    rw [hidentifier] at hget
    obtain ⟨hold, hne⟩ := deallocPort_entry halone hget hq
    exact ⟨hold, fun heq => absurd heq hne⟩
  | active addr =>
    rw [hidentifier] at hget
    exact ⟨hget, by rintro - port ⟨⟩⟩
  | automatic =>
    rw [hidentifier] at hget
    exact ⟨hget, by rintro - port ⟨⟩⟩

/-- A port that still has a connection has one that was not closed. -/
theorem releasePorts_entry (ps : List Pointer) : ∀ {ports : List PortMetadata}, Alone ports →
    ∀ {i : ℕ} {metadata : PortMetadata} {q : Pointer},
    (ps.foldl (releasePort memory) ports)[i]? = some metadata →
    metadata.associatedConnection = some q →
    ports[i]? = some metadata ∧ (q ∈ ps → ∀ port, (memory q).identifier ≠ .passive port) := by
  induction ps with
  | nil =>
    intro ports _ i metadata q hget _
    exact ⟨hget, by rintro ⟨⟩⟩
  | cons p ps ih =>
    intro ports halone i metadata q hget hq
    rw [List.foldl_cons] at hget
    have halone' : Alone (releasePort memory ports p) := by
      intro i j metadata metadata' r hgeti hgetj hi hj
      exact halone i j metadata metadata' r (releasePort_entry halone hgeti hi).1
        (releasePort_entry halone hgetj hj).1 hi hj
    obtain ⟨hget', hclosed⟩ := ih halone' hget hq
    obtain ⟨hget'', hfirst⟩ := releasePort_entry halone hget' hq
    refine ⟨hget'', ?_⟩
    intro hmem
    rcases List.mem_cons.1 hmem with rfl | htail
    · exact hfirst rfl
    · exact hclosed htail

/-- A clean-up that keeps nothing leaves no connection in the list and none at a port. -/
theorem ControllerInv.cleaned (h : ControllerInv controller) {filter : Option Pointer}
    (hnothing : KeepsNothing controller env filter) :
    ControllerInv (ntsInternalDataConnectionsToClose controller env filter).1 := by
  have hempty := hnothing.empty
  have hnone : ∀ (i : ℕ) (metadata : PortMetadata) (p : Pointer),
      (ntsInternalDataConnectionsToClose controller env filter).1.ports[i]? = some metadata →
      metadata.associatedConnection ≠ some p := by
    intro i metadata p hget hp
    rw [ntsInternalDataConnectionsToClose_eq, hnothing.toCloseOf_eq] at hget
    obtain ⟨hold, hnot⟩ := releasePorts_entry _ h.alone hget hp
    -- a connection of a port is on the list, and a passive one
    obtain ⟨hmem, hpassive⟩ := h.associated i metadata hold p hp
    exact hnot hmem metadata.port hpassive
  refine ⟨.of_empty hempty, ⟨?_, ?_, ?_⟩, ?_⟩
  · rw [hempty]
    intro p hp
    cases hp
  · rw [hempty]
    exact List.nodup_nil
  · intro i metadata hget p hp
    exact absurd hp (hnone i metadata p hget)
  · intro i j metadata metadata' p hget _ hp _
    exact absurd hp (hnone i metadata p hget)

/-! ## Steps -/

theorem retrieve_matches (h : connection.Matches) (env : CallEnv) :
    (retrieve env connection).1.Matches := by
  unfold DataConnection.Matches at h ⊢
  unfold retrieve
  cases hstate : connection.state with
  | empty => simpa [hstate, DataConnection.touch] using h
  | hasDescriptor => simpa [hstate] using h
  | hasAssociatedControl => simpa [hstate] using h
  | hasBoth => simpa [hstate] using h

theorem retrieve_got (h : (retrieve env connection).2 = true) :
    (retrieve env connection).1.state = .hasBoth := by
  unfold retrieve at h ⊢
  cases hstate : connection.state with
  | empty => simp [hstate] at h
  | hasDescriptor => rfl
  | hasAssociatedControl => simp [hstate] at h
  | hasBoth => rfl

/-- What a control thread did not get at once it may get when the connect is tried again. -/
theorem resume_cases (env : CallEnv) (connection : DataConnection) (got : Bool) :
    (∃ activeData, resume env connection got =
      ({ connection with activeData := activeData }, got)) ∨
    ((resume env connection got).1.state = .hasBoth ∧
      (resume env connection got).1.descriptor ≠ none) := by
  unfold resume
  split
  · split
    · exact .inl ⟨connection.activeData, rfl⟩
    · exact .inl ⟨_, rfl⟩
    · exact .inr ⟨rfl, Option.some_ne_none _⟩
  · exact .inl ⟨connection.activeData, rfl⟩

theorem resume_matches (h : connection.Matches) (got : Bool) :
    (resume env connection got).1.Matches := by
  rcases resume_cases env connection got with ⟨activeData, heq⟩ | ⟨hstate, hdescriptor⟩
  · rw [heq]
    exact h
  · exact ⟨fun _ => .inr hstate, fun _ => hdescriptor⟩

theorem resume_got {got : Bool} (h : (resume env connection got).2 = true)
    (hgot : got = true → connection.state = .hasBoth) :
    (resume env connection got).1.state = .hasBoth := by
  rcases resume_cases env connection got with ⟨activeData, heq⟩ | ⟨hstate, -⟩
  · rw [heq] at h ⊢
    exact hgot h
  · exact hstate

/-- A descriptor that is added at a time the clock gives comes with its state. -/
theorem ControllerInv.addDescriptor (h : ControllerInv controller) (p : Pointer) (descriptor : ℕ)
    (htimed : p ∈ controller.connections →
      (controller.memory p).state = .empty ∨ (controller.memory p).state = .hasAssociatedControl →
      env.now 0 ≠ none) :
    ControllerInv (dataControllerAddDescriptor controller env p descriptor).1 := by
  have hrefresh := h.refresh env
  have hmemory : p ∈ controller.connections →
      (controller.refresh env).memory p = controller.memory p :=
    fun hp => refresh_memory h.toSound hp env
  unfold dataControllerAddDescriptor
  dsimp only
  split
  · rename_i hstate
    cases hnow : env.now 0 with
    | none =>
      refine hrefresh.write rfl ?_
      intro hp
      rw [hmemory hp] at hstate
      exact absurd hnow (htimed hp (.inl hstate))
    | some now => exact hrefresh.write rfl fun _ => ⟨fun _ => .inl rfl, fun _ => by rintro ⟨⟩⟩
  · rename_i hstate
    cases hnow : env.now 0 with
    | none =>
      refine hrefresh.write rfl ?_
      intro hp
      rw [hmemory hp] at hstate
      exact absurd hnow (htimed hp (.inr hstate))
    | some now => exact hrefresh.write rfl fun _ => ⟨fun _ => .inr rfl, fun _ => by rintro ⟨⟩⟩
  · exact hrefresh
  · exact hrefresh

theorem ControllerInv.forDataThread (h : ControllerInv controller) {portIndex : ℕ}
    (horderly : Orderly controller (.forDataThread env portIndex)) :
    ControllerInv (getDataConnectionForDataThreadOrAddPassive controller env portIndex).1 := by
  have hrefresh := h.refresh env
  rcases forDataThread_cases controller env portIndex with
    heq | ⟨metadata, p, hget, hp, hidentifier, heq⟩ | ⟨metadata, hget, hadds, hadded⟩
  · rw [heq]
    exact hrefresh
  · rw [heq]
    exact hrefresh.associate hget hp hidentifier (horderly.ports metadata hget)
  rcases hadded with hpush | ⟨p, connection, hfresh, hidentifier, hstate, hdescriptor, heq⟩
  · have htrue : env.push = true := horderly.pushes ⟨metadata, hget, hadds⟩
    rw [htrue] at hpush
    cases hpush
  · have hmatches : connection.Matches := by
      unfold DataConnection.Matches
      simp [hstate, hdescriptor]
    have hnew := hrefresh.added hfresh hmatches (by rw [hidentifier]; exact hadds.2)
    rw [heq]
    refine hnew.associate hget (List.mem_append_right _ (List.mem_singleton_self p)) ?_
      (horderly.ports metadata hget)
    rw [added_memory]
    exact hidentifier

/-- What a control thread is given is on the list, and has both sides. -/
theorem ControllerInv.forControlThread (h : ControllerInv controller) {settings : FTPDataSettings}
    (horderly : Orderly controller (.forControlThread env settings)) :
    ControllerInv (getDataConnectionForControlThreadOrAdd controller env settings).1 ∧
    ∀ p, (getDataConnectionForControlThreadOrAdd controller env settings).2 = some p →
      p ∈ (getDataConnectionForControlThreadOrAdd controller env settings).1.connections ∧
      ((getDataConnectionForControlThreadOrAdd controller env settings).1.memory p).state =
        .hasBoth := by
  have hrefresh := h.refresh env
  rcases forControlThread_cases controller env settings with
    heq | ⟨p, hp, resumed, hresumed, heq⟩ | ⟨hasked, hadds, hadded⟩
  · rw [heq]
    exact ⟨hrefresh, by rintro p ⟨⟩⟩
  · rw [heq, hresumed]
    constructor
    · refine hrefresh.write ?_ ?_
      · rw [resume_identifier, retrieve_identifier]
      · intro hmem
        exact resume_matches (retrieve_matches (hrefresh.descriptor p hmem) env) _
    · intro q hq
      dsimp only at hq
      split_ifs at hq with hgot
      cases hq
      refine ⟨hp, ?_⟩
      dsimp only [DataController.write]
      rw [Function.update_self]
      exact resume_got hgot retrieve_got
  rcases hadded with hpush | ⟨p, connection, got, hfresh, hidentifier, heq, hstate⟩
  · have htrue : env.push = true := horderly.pushes ⟨hasked, hadds⟩
    rw [htrue] at hpush
    cases hpush
  · rcases hstate with honce | ⟨hwaiting, hdescriptor, rfl⟩
    · exact absurd honce (horderly.notAtOnce ⟨hasked, hadds⟩)
    · have hmatches : connection.Matches := by
        unfold DataConnection.Matches
        simp [hwaiting, hdescriptor]
      rw [heq]
      exact ⟨hrefresh.added hfresh hmatches (by rw [hidentifier]; exact hadds.2),
        by rintro p ⟨⟩⟩

/-- The table of ports with an entry whose connection stays. -/
theorem ControllerInv.modifyPort (h : ControllerInv controller) {index : ℕ}
    {f : PortMetadata → PortMetadata}
    (hassociated : ∀ metadata, (f metadata).associatedConnection = metadata.associatedConnection)
    (hport : ∀ metadata, controller.ports[index]? = some metadata →
      metadata.associatedConnection ≠ none → (f metadata).port = metadata.port) :
    ControllerInv { controller with ports := controller.ports.modify index f } := by
  refine ⟨⟨h.nodup, h.live⟩, ⟨h.descriptor, h.identifiers, ?_⟩, ?_⟩
  · intro i metadata hget p hp
    obtain ⟨old, hold, ⟨rfl, rfl⟩ | ⟨-, rfl⟩⟩ := getElem?_modify_cases hget
    · rw [hassociated] at hp
      rw [hport old hold (by rw [hp]; exact Option.some_ne_none p)]
      exact h.associated i old hold p hp
    · exact h.associated i metadata hold p hp
  · intro i j metadata metadata' p hgeti hgetj hi hj
    have hentry : ∀ {i : ℕ} {metadata : PortMetadata},
        (controller.ports.modify index f)[i]? = some metadata →
        metadata.associatedConnection = some p →
        ∃ old, controller.ports[i]? = some old ∧ old.associatedConnection = some p := by
      intro i metadata hget hp
      obtain ⟨old, hold, ⟨rfl, rfl⟩ | ⟨-, rfl⟩⟩ := getElem?_modify_cases hget
      · rw [hassociated] at hp
        exact ⟨old, hold, hp⟩
      · exact ⟨metadata, hold, hp⟩
    obtain ⟨old, hold, hp⟩ := hentry hgeti hi
    obtain ⟨old', hold', hp'⟩ := hentry hgetj hj
    exact h.alone i j old old' p hold hold' hp hp'

/-- **Every call keeps the controller consistent**, but for its exits that do not. -/
theorem controllerInv_step (h : ControllerInv controller) (call : ControllerCall)
    (horderly : Orderly controller call) : ControllerInv (controllerStep controller call) := by
  cases call with
  | setPortAsAvailable index port =>
    dsimp only [controllerStep]
    unfold dataConnectionSetPortAsAvailable
    split_ifs
    · exact h
    · refine h.modifyPort (fun _ => rfl) ?_
      intro metadata hget hassociated
      exact absurd (horderly.ports metadata hget) hassociated
  | getAvailablePort =>
    dsimp only [controllerStep]
    unfold getAvailablePortForPassiveMode
    dsimp only
    split
    · exact h
    · exact h.modifyPort (fun _ => rfl) fun _ _ _ => rfl
  | forDataThread env portIndex => exact h.forDataThread horderly
  | addDescriptor env p descriptor => exact h.addDescriptor p descriptor horderly.timed
  | forControlThread env settings => exact (h.forControlThread horderly).1
  | getDescriptor env p =>
    dsimp only [controllerStep]
    unfold dataConnectionGetDescriptorToSendTo
    dsimp only
    split_ifs
    · exact (h.refresh env).write rfl ((h.refresh env).descriptor p)
    · exact (h.refresh env).write rfl ((h.refresh env).descriptor p)
  | close env p =>
    have hwrite : ∀ controlState, ControllerInv ((controller.refresh env).write p
        { (controller.refresh env).memory p with controlState := controlState }) :=
      fun _ => (h.refresh env).write rfl ((h.refresh env).descriptor p)
    dsimp only [controllerStep]
    unfold dataConnectionClose
    dsimp only
    split_ifs with hstate
    · exact hwrite .error
    · exact (hwrite .shouldClose).cleaned (horderly.keepsNothing _ (cleanUpOf_close hstate))
  | toClose env => exact (h.refresh env).cleaned (horderly.keepsNothing _ rfl)

theorem controllerInv_initialize (passivePortAmount : ℕ) (memory : Pointer → DataConnection) :
    ControllerInv (initializeDataController passivePortAmount memory) := by
  have hentry : ∀ (i : ℕ) (metadata : PortMetadata),
      (initializeDataController passivePortAmount memory).ports[i]? = some metadata →
      metadata.associatedConnection = none := by
    intro i metadata hget
    rw [List.eq_of_mem_replicate (List.mem_of_getElem? hget)]
  refine ⟨.of_empty rfl, ⟨?_, List.nodup_nil, ?_⟩, ?_⟩
  · rintro p ⟨⟩
  · intro i metadata hget p hp
    rw [hentry i metadata hget] at hp
    cases hp
  · intro i j metadata metadata' p hget _ hp _
    rw [hentry i metadata hget] at hp
    cases hp

theorem givesDescriptor_of_orderly (h : ControllerInv controller) (call : ControllerCall)
    (horderly : Orderly controller call) : GivesDescriptor controller call := by
  cases call with
  | forControlThread env settings =>
    intro p hp
    obtain ⟨hinv, hgiven⟩ := h.forControlThread horderly
    obtain ⟨hmem, hboth⟩ := hgiven p hp
    exact (hinv.descriptor p hmem).2 (.inr hboth)
  | _ => trivial

/-- **The controller stays consistent**, in every run whose calls take none of the exits that
break it. -/
theorem staysConsistent_of_along (passivePortAmount : ℕ) (memory : Pointer → DataConnection)
    (calls : List ControllerCall)
    (h : Along controllerStep Orderly (initializeDataController passivePortAmount memory) calls) :
    StaysConsistent passivePortAmount memory calls := by
  have hinit := controllerInv_initialize passivePortAmount memory
  refine ⟨hinit.toConsistent, ?_⟩
  refine Along.imp (I := ControllerInv) (fun _ call hinv => controllerInv_step hinv call) ?_ hinit h
  intro controller call hinv horderly
  exact ⟨(controllerInv_step hinv call horderly).toConsistent,
    givesDescriptor_of_orderly hinv call horderly⟩

theorem oneTransfer_staysConsistent : StaysConsistent 10 noMemory oneTransfer :=
  staysConsistent_of_along 10 noMemory oneTransfer (by decide +kernel)

/-- The client of an active connection accepts it at once. -/
def connectedAtOnce : CallEnv :=
  { callAt 1 1 7 with socket := some 20, connect := .connected }

/-- The thread is given a connection that says it has a descriptor and has none. -/
theorem activeAtOnce_noDescriptor :
    ¬ StaysConsistent 10 noMemory
      [.forControlThread connectedAtOnce (.active ⟨0x7F000001, 5000⟩)] := by
  rintro ⟨-, hcall, -⟩
  have hgives := hcall.2 7 (by decide +kernel)
  revert hgives
  decide +kernel

end SimpleServer.Ftp
