import SimpleServer.Ftp.Transfer
import SimpleServer.Proof.CleanUp

/-!
# What a transfer leaves behind

A connection with both sides is only closed when it is marked for it, and `data_connection_close`
is the one place that does so: a transfer that returns another way leaves its connection open for
good. The port of a connection is released through the back pointer of the port, which only the
listener of the port sets.

* `close_gone`: `data_connection_close` leaves nothing open.
* `portsReleased_of_known`: a clean-up releases the ports that know the connection it closes.
* `nothingLeaked_of_along`: **nothing is leaked** in the runs in which transfers close their
  connections and the ports of connections that are closed know them.
-/

namespace SimpleServer.Ftp

open Lib

variable {controller : DataController} {env : CallEnv} {p : Pointer} {server : FtpServer}
  {ports : List PortMetadata} {memory : Pointer → DataConnection}

/-! ## What is asked -/

/-- The connection is to be closed, at the latest once the negotiation time-out has passed. -/
def WillBeClosed (connection : DataConnection) : Prop :=
  ∀ now, connection.lastChange + internalNegotiationTimeout ≤ now →
    ntsInternalShouldCloseConnection connection (some now) = true

/-- A transfer that returns leaves no connection open. -/
def NoConnectionLeft (controlPort : UInt16) (server : FtpServer) (e : TransferEvent) : Prop :=
  ∀ p ∈ returned server e,
    p ∉ (transferStep controlPort server e).controller.connections ∨
      WillBeClosed ((transferStep controlPort server e).controller.memory p)

/-- The ports of the passive connections that a call removes are not reserved after it. -/
def PortsReleased (controller : DataController) (call : ControllerCall) : Prop :=
  ∀ cleanUp ∈ cleanUpOf controller call, ∀ p ∈ cleanUp.1.connections,
    p ∉ (controllerStep controller call).connections →
    ∀ port, (cleanUp.1.memory p).identifier = .passive port →
      isReserved (controllerStep controller call).ports port = false

/-- No data connection and no passive port is leaked, over a whole run of the threads. -/
def NothingLeaked (controlPort : UInt16) (memory : Pointer → DataConnection)
    (events : List TransferEvent) : Prop :=
  Along (transferStep controlPort)
    (fun server e => NoConnectionLeft controlPort server e ∧
      ∀ call ∈ transferCall controlPort server e, PortsReleased server.controller call)
    (startServer memory) events

/-- A transfer that has a data connection is RETR or LIST, and returns when everything is sent. -/
def ClosesOnReturn (server : FtpServer) : TransferEvent → Prop
  | .thread (.close _ _) => True
  | .returns session command outcome env =>
    returned server (.returns session command outcome env) = none ∨
      (command ≠ .stor ∧ outcome = .success)
  | e => returned server e = none

/-- What is reserved of the port of a connection that is closed is the first entry whose back
pointer is this connection. -/
def PortsKnown (controller : DataController) (call : ControllerCall) : Prop :=
  ∀ cleanUp ∈ cleanUpOf controller call,
    ∀ p ∈ toCloseOf cleanUp.1 cleanUp.2.1 cleanUp.2.2, ∀ entry ∈ cleanUp.1.ports.zipIdx,
      (cleanUp.1.memory p).identifier = .passive entry.1.port → entry.1.reserved = true →
      cleanUp.1.ports.findIdx (fun metadata => metadata.associatedConnection == some p) = entry.2

/-- Transfers close their connections, and ports know theirs. -/
def Tidy (controlPort : UInt16) (server : FtpServer) (e : TransferEvent) : Prop :=
  ClosesOnReturn server e ∧
    ∀ call ∈ transferCall controlPort server e, PortsKnown server.controller call

/-! ## Connections -/

/-- `data_connection_close` removes the connection, or marks it. -/
theorem close_gone (controller : DataController) (env : CallEnv) (p : Pointer) :
    p ∉ (dataConnectionClose controller env p).1.connections ∨
      WillBeClosed ((dataConnectionClose controller env p).1.memory p) := by
  unfold dataConnectionClose
  dsimp only
  split_ifs with hstate
  · right
    intro now hnow
    dsimp only [DataController.write] at hnow ⊢
    rw [Function.update_self] at hnow ⊢
    unfold ntsInternalShouldCloseConnection
    by_cases hboth : ((controller.refresh env).memory p).state ≠ .hasBoth
    · rw [if_pos hboth]
      simpa using hnow
    · rw [if_neg hboth]
      rfl
  · left
    rw [not_or, not_not, not_not] at hstate
    dsimp only [ntsInternalCloseConnection]
    rw [ntsInternalDataConnectionsToClose_eq]
    intro hkept
    -- at every place of the list it is due
    unfold keptOf keptFrom at hkept
    obtain ⟨place, hplace, rfl⟩ := List.mem_map.1 hkept
    have hnot := (List.mem_filter.1 hplace).2
    rw [decide_eq_true_iff] at hnot
    refine hnot ⟨?_, .inr rfl⟩
    dsimp only [DataController.write]
    rw [Function.update_self]
    unfold ntsInternalShouldCloseConnection
    rw [if_neg (not_not.2 hstate.1)]
    rfl

theorem close_noConnectionLeft {session : ℕ} (hpc : (server.sessions session).pc = .sending p)
    (controlPort : UInt16) (env : CallEnv) :
    p ∉ (serverStep controlPort server (.close session env)).controller.connections ∨
      WillBeClosed ((serverStep controlPort server (.close session env)).controller.memory p) := by
  rw [serverStep_controller]
  dsimp only [callOf]
  rw [hpc]
  exact close_gone server.controller env p

/-- A transfer that returns with its connection closed leaves none open. -/
theorem noConnectionLeft_of_closes (controlPort : UInt16) {e : TransferEvent}
    (h : ClosesOnReturn server e) : NoConnectionLeft controlPort server e := by
  intro p hp
  cases e with
  | thread e =>
    cases e with
    | close session env =>
      dsimp only [returned] at hp
      cases hpc : (server.sessions session).pc with
      | sending connection =>
        rw [hpc] at hp
        cases hp
        exact close_noConnectionLeft hpc controlPort env
      | _ =>
        rw [hpc] at hp
        cases hp
    | finish session =>
      rw [show returned server (.thread (.finish session)) = none from h] at hp
      cases hp
    | _ => cases hp
  | returns session command outcome env =>
    rcases h with hnone | ⟨hcommand, rfl⟩
    · rw [hnone] at hp
      cases hp
    · dsimp only [returned] at hp
      cases hpc : (server.sessions session).pc with
      | sending connection =>
        rw [hpc] at hp
        cases hp
        have hclose := close_noConnectionLeft hpc controlPort env
        cases command with
        | stor => exact absurd rfl hcommand
        | retr => exact hclose
        | list => exact hclose
      | retrieved connection =>
        rw [hpc] at hp
        cases hp
      | _ =>
        rw [hpc] at hp
        cases hp

/-! ## Ports -/

theorem releasePort_releases (memory : Pointer → DataConnection) (ports : List PortMetadata)
    (p : Pointer) : Releases ports (releasePort memory ports p) := by
  unfold releasePort
  cases (memory p).identifier with
  | passive port => exact deallocPort_releases p ports
  | active addr => exact .refl ports
  | automatic => exact .refl ports

theorem releasePorts_releases (memory : Pointer → DataConnection) (ps : List Pointer) :
    ∀ ports, Releases ports (ps.foldl (releasePort memory) ports) := by
  induction ps with
  | nil => exact fun ports => .refl ports
  | cons p ps ih => exact fun ports => (releasePort_releases memory ports p).trans (ih _)

/-- Another connection that is closed does not change which port has this one. -/
theorem releasePort_findIdx (memory : Pointer → DataConnection) (ports : List PortMetadata)
    {q : Pointer} (hne : q ≠ p) :
    (releasePort memory ports q).findIdx (fun metadata => metadata.associatedConnection == some p) =
      ports.findIdx fun metadata => metadata.associatedConnection == some p := by
  have hdealloc : (deallocPort q ports).findIdx
      (fun metadata => metadata.associatedConnection == some p) =
      ports.findIdx fun metadata => metadata.associatedConnection == some p := by
    -- the entry that changes has the other connection before, and none after
    have hmap : (deallocPort q ports).map
          (fun metadata => metadata.associatedConnection == some p) =
        ports.map fun metadata => metadata.associatedConnection == some p := by
      refine List.ext_getElem? ?_
      intro i
      rw [List.getElem?_map, List.getElem?_map]
      unfold deallocPort
      rw [List.getElem?_modify]
      cases hget : ports[i]? with
      | none => rfl
      | some metadata =>
        by_cases hi : ports.findIdx (fun metadata => metadata.associatedConnection == some q) = i
        · obtain ⟨hlt, hentry⟩ := List.getElem?_eq_some_iff.1 hget
          subst hi
          have hassociated := List.findIdx_getElem (w := hlt)
          rw [hentry, beq_iff_eq] at hassociated
          simp [hassociated, hne]
        · simp [hi]
    have hidx := congrArg (List.findIdx id) hmap
    rw [List.findIdx_map, List.findIdx_map] at hidx
    exact hidx
  unfold releasePort
  cases (memory q).identifier with
  | passive port => exact hdealloc
  | active addr => rfl
  | automatic => rfl

/-- The first port with a connection that is closed is released. -/
theorem releasePorts_released {port : UInt16} (ps : List Pointer) :
    ∀ {ports : List PortMetadata} {i : ℕ}, p ∈ ps → (memory p).identifier = .passive port →
    ports.findIdx (fun metadata => metadata.associatedConnection == some p) = i →
    ∀ metadata, (ps.foldl (releasePort memory) ports)[i]? = some metadata →
      metadata.reserved = false := by
  induction ps with
  | nil => rintro ports i ⟨⟩
  | cons q ps ih =>
    intro ports i hmem hidentifier hfirst metadata hget
    rw [List.foldl_cons] at hget
    by_cases hq : q = p
    · subst hq
      -- it is released now, and nothing reserves it again
      obtain ⟨before, hbefore, -, -, hreserved⟩ :=
        releasePorts_releases memory ps (releasePort memory ports q) i metadata hget
      unfold releasePort at hbefore
      rw [hidentifier] at hbefore
      unfold deallocPort at hbefore
      obtain ⟨old, -, ⟨-, rfl⟩ | ⟨hne, -⟩⟩ := getElem?_modify_cases hbefore
      · by_contra hnot
        have htrue := hreserved (by simpa using hnot)
        cases htrue
      · exact absurd hfirst.symm hne
    · rw [← releasePort_findIdx memory ports hq] at hfirst
      have htail : p ∈ ps := by
        rcases List.mem_cons.1 hmem with rfl | htail
        · exact absurd rfl hq
        · exact htail
      exact ih htail hidentifier hfirst metadata hget

theorem cleanUpOf_step {call : ControllerCall}
    {cleanUp : DataController × CallEnv × Option Pointer}
    (h : cleanUpOf controller call = some cleanUp) :
    controllerStep controller call =
      (ntsInternalDataConnectionsToClose cleanUp.1 cleanUp.2.1 cleanUp.2.2).1 := by
  cases call with
  | toClose env =>
    cases h
    rfl
  | close env p =>
    dsimp only [cleanUpOf] at h
    split_ifs at h with hstate
    cases h
    dsimp only [controllerStep]
    unfold dataConnectionClose
    dsimp only
    rw [if_neg hstate]
    rfl
  | _ => cases h

/-- A clean-up releases the ports that know the connections it closes. -/
theorem portsReleased_of_known {call : ControllerCall} (h : PortsKnown controller call) :
    PortsReleased controller call := by
  intro cleanUp hcleanUp p hp hgone port hidentifier
  have hstep := cleanUpOf_step hcleanUp
  rw [ntsInternalDataConnectionsToClose_eq] at hstep
  rw [hstep] at hgone ⊢
  -- what is not kept is closed
  have hclosed : p ∈ toCloseOf cleanUp.1 cleanUp.2.1 cleanUp.2.2 := by
    obtain ⟨i, hi⟩ := List.mem_iff_getElem?.1 hp
    have hplace : (p, i) ∈ cleanUp.1.connections.zipIdx := List.mem_zipIdx_iff_getElem?.2 hi
    by_cases hdue : Due cleanUp.1.memory cleanUp.2.1.now cleanUp.2.2 i p
    · exact List.mem_map.2 ⟨(p, i), List.mem_filter.2 ⟨hplace, decide_eq_true hdue⟩, rfl⟩
    · refine absurd ?_ hgone
      exact List.mem_map.2 ⟨(p, i), List.mem_filter.2 ⟨hplace, decide_eq_true hdue⟩, rfl⟩
  by_contra hreserved
  obtain ⟨i, metadata', hget', hport', hreserved'⟩ :=
    isReserved_iff.1 (Bool.eq_true_of_not_eq_false hreserved)
  obtain ⟨metadata, hget, hport, -, hbefore⟩ :=
    releasePorts_releases cleanUp.1.memory _ cleanUp.1.ports i metadata' hget'
  -- an entry of the port that is still reserved was reserved before, so it was the one released
  have hfirst := h cleanUp hcleanUp p hclosed (metadata, i) (List.mem_zipIdx_iff_getElem?.2 hget)
    (by rw [hidentifier, ← hport', hport]) (hbefore hreserved')
  have hfalse := releasePorts_released _ hclosed hidentifier hfirst metadata' hget'
  rw [hreserved'] at hfalse
  cases hfalse

/-- **No data connection or passive port is leaked**, in every run in which transfers that have a
connection get to close it, and a port that is reserved for a connection that is removed has it as
its associated connection. -/
theorem nothingLeaked_of_along (controlPort : UInt16) (memory : Pointer → DataConnection)
    (events : List TransferEvent)
    (h : Along (transferStep controlPort) (Tidy controlPort) (startServer memory) events) :
    NothingLeaked controlPort memory events := by
  refine Along.imp (I := fun _ => True) (fun _ _ _ _ => trivial) ?_ trivial h
  intro server e _ htidy
  refine ⟨noConnectionLeft_of_closes controlPort htidy.1, ?_⟩
  intro call hcall
  exact portsReleased_of_known (htidy.2 call hcall)

instance (server : FtpServer) (e : TransferEvent) : Decidable (ClosesOnReturn server e) :=
  match e with
  | .returns _ _ _ _ => inferInstanceAs (Decidable (_ ∨ _))
  | .thread (.close _ _) => isTrue trivial
  | .thread (.pasv _ _) | .thread (.answer _ _) | .thread (.port _ _) | .thread (.transfer _ _)
  | .thread (.ask _ _) | .thread (.giveUp _) | .thread (.getDescriptor _ _)
  | .thread (.finish _) | .thread (.start _) | .thread (.poll _ _) | .thread (.accept _ _)
  | .thread (.addDescriptor _ _ _) | .thread (.clean _ _) => inferInstanceAs (Decidable (_ = _))

instance (controller : DataController) (call : ControllerCall) :
    Decidable (PortsKnown controller call) :=
  inferInstanceAs (Decidable (∀ cleanUp ∈ cleanUpOf controller call, _))

instance (controlPort : UInt16) (server : FtpServer) (e : TransferEvent) :
    Decidable (Tidy controlPort server e) :=
  inferInstanceAs (Decidable (_ ∧ ∀ call ∈ transferCall controlPort server e, _))

/-- Session 1 gets port 2122, its client connects while it waits, and RETR sends the file. -/
def retrieveFile : List TransferEvent :=
  [.thread (.start 0), .thread (.pasv 1 0x7F000001), .thread (.answer 1 .sent),
    .thread (.transfer 1 (callAt 1 1 7)), .thread (.ask 1 (callAt 2 1 7)),
    .thread (.accept 0 (callAt 3 9 8)), .thread (.addDescriptor 0 20 (callAt 3 9 8)),
    .thread (.ask 1 (callAt 4 1 8)), .thread (.getDescriptor 1 (callAt 4 1 8)),
    .returns 1 .retr .success (callAt 5 1 8), .thread (.clean 0 (callAt 6 9 8))]

theorem retrieveFile_nothingLeaked : NothingLeaked 2121 noMemory retrieveFile :=
  nothingLeaked_of_along 2121 noMemory retrieveFile (by decide +kernel)

/-- Session 1 gets port 2122 and waits for a client that never connects. -/
def waitInVain : List TransferEvent :=
  [.thread (.start 0), .thread (.pasv 1 0x7F000001), .thread (.answer 1 .sent),
    .thread (.transfer 1 (callAt 1 1 7)), .thread (.ask 1 (callAt 2 1 7)), .thread (.giveUp 1)]

/-- When the connection has timed out it is removed, and its port is still reserved. -/
theorem timedOut_stillReserved :
    ¬ NothingLeaked 2121 noMemory
      (waitInVain ++ [.thread (.poll 0 (callAt 40000000000 9 8))]) := by
  intro h
  have hat := along_iff.1 h waitInVain (.thread (.poll 0 (callAt 40000000000 9 8))) [] rfl
  have hreleased := hat.2 (.toClose (callAt 40000000000 9 8)) rfl _ rfl 7 (by decide +kernel)
    (by decide +kernel) 2122 (by decide +kernel)
  revert hreleased
  decide +kernel

end SimpleServer.Ftp
