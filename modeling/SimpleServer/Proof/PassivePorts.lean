import SimpleServer.Lib.Run
import SimpleServer.Ftp.Threads

/-!
# Whose data connection it is

A passive port is reserved for one session at a time, but the connections of the controller are
known by their port only, and a session keeps the port in its settings when the port was
released.

* `PortsInv`: a port is held by at most one session, which is the one last answered with it.
* `portsInv_step`: every operation keeps it, if PASV answers with ports that are still held.
* `neverHandedOver_of_along`: a session only gets connections of its own, as long as it asks
  with a port it still holds.
* `releasedPort_handedOver`: asking with a port that was released gives the connection of
  another client.
-/

namespace SimpleServer.Ftp

open Lib

/-- A passive connection that a session is given is on a port with which the session was the
last to be answered. -/
def ToItsOwner (server : FtpServer) : ServerEvent → Prop
  | .ask session env =>
    (server.sessions session).pc = .asking → ∀ connection port,
      (handedOut server session env).2 = some connection →
      ((handedOut server session env).1.memory connection).identifier = .passive port →
      server.answered port = some session
  | _ => True

/-- No connection is handed to another client, over a whole run of the threads. -/
def NeverHandedOver (controlPort : UInt16) (memory : Pointer → DataConnection)
    (events : List ServerEvent) : Prop :=
  Along (serverStep controlPort) ToItsOwner (startServer memory) events

/-- The session and the passive port that an event relies on: PASV answers with it, or a
transfer asks with it. -/
def neededPort (server : FtpServer) : ServerEvent → Option (ℕ × UInt16)
  | .answer session .sent =>
    match (server.sessions session).pc with
    | .answering addr => some (session, addr.port)
    | _ => none
  | .ask session _ =>
    match (server.sessions session).pc, (server.sessions session).settings with
    | .asking, .passive addr => some (session, addr.port)
    | _, _ => none
  | _ => none

/-- That port was not released since it was reserved for the session. -/
def StillHeld (server : FtpServer) (e : ServerEvent) : Prop :=
  ∀ session port, neededPort server e = some (session, port) → server.held session port = true

instance (server : FtpServer) (e : ServerEvent) : Decidable (StillHeld server e) :=
  match h : neededPort server e with
  | none => isTrue fun _ _ hsome => by rw [h] at hsome; cases hsome
  | some (session, port) =>
    decidable_of_iff (server.held session port = true)
      ⟨fun hheld _ _ hsome => by rw [h] at hsome; cases hsome; exact hheld,
        fun hheld => hheld session port h⟩

/-! ## The table of ports -/

/-- The ports that are available have their numbers, and only these are reserved. -/
structure PortsOk (ports : List UInt16) (table : List PortMetadata) : Prop where
  available : ∀ (i : ℕ) (metadata : PortMetadata), table[i]? = some metadata →
    metadata.available = true → ports[i]? = some metadata.port
  reserved : ∀ (i : ℕ) (metadata : PortMetadata), table[i]? = some metadata →
    metadata.reserved = true → metadata.available = true

variable {ports : List UInt16} {table table' : List PortMetadata} {server : FtpServer}
  {session : ℕ} {port : UInt16} {controller : DataController}

theorem PortsOk.releases (h : PortsOk ports table) (hreleases : Releases table table') :
    PortsOk ports table' := by
  constructor
  · intro i metadata' hget havailable'
    obtain ⟨metadata, hget, hport, havailable, -⟩ := hreleases i metadata' hget
    rw [hport]
    exact h.available i metadata hget (havailable ▸ havailable')
  · intro i metadata' hget hreserved'
    obtain ⟨metadata, hget, -, havailable, hreserved⟩ := hreleases i metadata' hget
    rw [havailable]
    exact h.reserved i metadata hget (hreserved hreserved')

theorem PortsOk.setAvailable (h : PortsOk ports controller.ports) {index : ℕ}
    (hport : ports[index]? = some port) :
    PortsOk ports (dataConnectionSetPortAsAvailable controller index port).1.ports := by
  unfold dataConnectionSetPortAsAvailable
  split_ifs
  · exact h
  -- the listener of this index enters the number of its port
  · constructor
    · intro i metadata' hget havailable
      obtain ⟨metadata, hget, ⟨rfl, rfl⟩ | ⟨-, rfl⟩⟩ := getElem?_modify_cases hget
      · exact hport
      · exact h.available i _ hget havailable
    · intro i metadata' hget hreserved
      obtain ⟨metadata, hget, ⟨rfl, rfl⟩ | ⟨-, rfl⟩⟩ := getElem?_modify_cases hget
      · rfl
      · exact h.reserved i _ hget hreserved

theorem isReserved_iff : isReserved table port = true ↔
    ∃ (i : ℕ) (metadata : PortMetadata), table[i]? = some metadata ∧ metadata.port = port ∧
      metadata.reserved = true := by
  unfold isReserved
  rw [List.any_eq_true]
  constructor
  · rintro ⟨metadata, hmem, hboth⟩
    obtain ⟨i, hget⟩ := List.mem_iff_getElem?.1 hmem
    rw [Bool.and_eq_true, beq_iff_eq] at hboth
    exact ⟨i, metadata, hget, hboth⟩
  · rintro ⟨i, metadata, hget, hport, hreserved⟩
    refine ⟨metadata, List.mem_of_getElem? hget, ?_⟩
    rw [Bool.and_eq_true, beq_iff_eq]
    exact ⟨hport, hreserved⟩

/-- What reserving a port does. -/
theorem getAvailablePortForPassiveMode_cases (controller : DataController) :
    getAvailablePortForPassiveMode controller = (controller, 0) ∨
    ∃ index metadata, controller.ports[index]? = some metadata ∧ metadata.available = true ∧
      metadata.reserved = false ∧
      getAvailablePortForPassiveMode controller =
        ({ controller with
            ports := controller.ports.modify index
              fun metadata => { metadata with reserved := true } }, metadata.port) := by
  unfold getAvailablePortForPassiveMode
  dsimp only
  split
  · exact .inl rfl
  · rename_i metadata hget
    obtain ⟨hlt, hmetadata⟩ := List.getElem?_eq_some_iff.1 hget
    have hfree := List.findIdx_getElem (w := hlt)
    rw [hmetadata, Bool.and_eq_true, Bool.not_eq_true'] at hfree
    exact .inr ⟨_, metadata, hget, hfree.1, hfree.2, rfl⟩

theorem PortsOk.reserve (h : PortsOk ports controller.ports) :
    PortsOk ports (getAvailablePortForPassiveMode controller).1.ports := by
  rcases getAvailablePortForPassiveMode_cases controller with
    heq | ⟨index, free, hfree, hav, -, heq⟩
  · rw [heq]
    exact h
  · rw [heq]
    constructor
    · intro i metadata' hget' havailable
      obtain ⟨metadata, hget, ⟨rfl, rfl⟩ | ⟨-, rfl⟩⟩ := getElem?_modify_cases hget'
      · exact h.available i metadata hget havailable
      · exact h.available i _ hget havailable
    · intro i metadata' hget' hreserved
      obtain ⟨metadata, hget, ⟨rfl, rfl⟩ | ⟨-, rfl⟩⟩ := getElem?_modify_cases hget'
      · rw [hfree] at hget
        cases hget
        exact hav
      · exact h.reserved i _ hget hreserved

/-- A port that can be reserved is not reserved under another index. -/
theorem PortsOk.not_reserved (h : PortsOk ports table) (hnodup : ports.Nodup) {index : ℕ}
    {metadata : PortMetadata} (hget : table[index]? = some metadata)
    (havailable : metadata.available = true) (hfree : metadata.reserved = false) :
    isReserved table metadata.port = false := by
  by_contra hnot
  obtain ⟨i, other, hother, hport, hreserved⟩ := isReserved_iff.1 (by simpa using hnot)
  -- both entries have the number of their index, and the numbers differ
  have hi := h.available i other hother (h.reserved i other hother hreserved)
  have hindex := h.available index metadata hget havailable
  rw [hport, ← hindex] at hi
  obtain ⟨hlt, -⟩ := List.getElem?_eq_some_iff.1 hindex
  have hsame : index = i := (List.getElem?_inj hlt hnodup).1 hi.symm
  rw [hsame, hother] at hget
  cases hget
  rw [hfree] at hreserved
  cases hreserved

/-! ## Who holds a port -/

/-- A port is held by at most one session. That session was the last to be answered with it, or
is about to be. -/
structure PortsInv (ports : List UInt16) (server : FtpServer) : Prop where
  table : PortsOk ports server.controller.ports
  reserved : ∀ session port, server.held session port = true →
    isReserved server.controller.ports port = true
  unique : ∀ session session' port, server.held session port = true →
    server.held session' port = true → session = session'
  answered : ∀ session port, server.held session port = true →
    (∃ addr, (server.sessions session).pc = .answering ⟨addr, port⟩) ∨
      server.answered port = some session

theorem portsInv_start (ports : List UInt16) (memory : Pointer → DataConnection) :
    PortsInv ports (startServer memory) := by
  have hentry : ∀ (i : ℕ) (metadata : PortMetadata),
      (startServer memory).controller.ports[i]? = some metadata →
      metadata = ⟨none, 0, false, false⟩ := by
    intro i metadata hget
    exact List.eq_of_mem_replicate (List.mem_of_getElem? hget)
  refine ⟨⟨?_, ?_⟩, nofun, nofun, nofun⟩
  · intro i metadata hget havailable
    rw [hentry i metadata hget] at havailable
    cases havailable
  · intro i metadata hget hreserved
    rw [hentry i metadata hget] at hreserved
    cases hreserved

theorem PortsInv.withController (h : PortsInv ports server)
    (htable : PortsOk ports controller.ports) :
    PortsInv ports (server.withController controller) := by
  -- a port is held no longer when the new table does not reserve it
  have hheld : ∀ session port, (server.withController controller).held session port = true →
      server.held session port = true ∧ isReserved controller.ports port = true := by
    intro session port hboth
    exact (Bool.and_eq_true _ _).mp hboth
  refine ⟨htable, ?_, ?_, ?_⟩
  · intro session port hboth
    exact (hheld session port hboth).2
  · intro session session' port hboth hboth'
    exact h.unique session session' port (hheld _ _ hboth).1 (hheld _ _ hboth').1
  · intro session port hboth
    exact h.answered session port (hheld _ _ hboth).1

theorem PortsInv.releases (h : PortsInv ports server)
    (hreleases : Releases server.controller.ports controller.ports) :
    PortsInv ports (server.withController controller) :=
  h.withController (h.table.releases hreleases)

theorem PortsInv.setSession (h : PortsInv ports server)
    (hpc : ∀ addr port, server.held session port = true →
      (server.sessions session).pc ≠ .answering ⟨addr, port⟩) (thread : ControlThread) :
    PortsInv ports (server.setSession session thread) := by
  refine ⟨h.table, h.reserved, h.unique, ?_⟩
  intro other port hheld
  rcases h.answered other port hheld with ⟨addr, hanswering⟩ | hanswered
  · left
    by_cases hother : other = session
    · subst hother
      exact absurd hanswering (hpc addr port hheld)
    · refine ⟨addr, ?_⟩
      dsimp only [FtpServer.setSession]
      rw [Function.update_of_ne hother]
      exact hanswering
  · exact .inr hanswered

theorem PortsInv.setListener (h : PortsInv ports server) (listener : ℕ) (pc : ListenerPc) :
    PortsInv ports (server.setListener listener pc) :=
  ⟨h.table, h.reserved, h.unique, h.answered⟩

/-! ## Steps -/

theorem setHeld_held (server : FtpServer) (session : ℕ) (port : UInt16) (value : Bool)
    (other : ℕ) (otherPort : UInt16) :
    (server.setHeld session port value).held other otherPort =
      if other = session ∧ otherPort = port then value else server.held other otherPort := by
  dsimp only [FtpServer.setHeld]
  by_cases hother : other = session
  · subst hother
    rw [Function.update_self]
    by_cases hport : otherPort = port
    · subst hport
      rw [Function.update_self, if_pos ⟨rfl, rfl⟩]
    · rw [Function.update_of_ne hport, if_neg fun hboth => hport hboth.2]
  · rw [Function.update_of_ne hother, if_neg fun hboth => hother hboth.1]

/-- A session gives a port back. -/
theorem PortsInv.setHeld_false (h : PortsInv ports server) (session : ℕ) (port : UInt16) :
    PortsInv ports (server.setHeld session port false) := by
  have hheld : ∀ other otherPort, (server.setHeld session port false).held other otherPort = true →
      server.held other otherPort = true := by
    intro other otherPort htrue
    rw [setHeld_held] at htrue
    split_ifs at htrue
    exact htrue
  exact ⟨h.table, fun other otherPort htrue => h.reserved _ _ (hheld other otherPort htrue),
    fun other other' otherPort htrue htrue' =>
      h.unique _ _ _ (hheld _ _ htrue) (hheld _ _ htrue'),
    fun other otherPort htrue => h.answered _ _ (hheld _ _ htrue)⟩

/-- A session that is about to answer with a port nobody holds takes it. -/
theorem PortsInv.setHeld_true (h : PortsInv ports server) (addr : UInt32)
    (hpc : (server.sessions session).pc = .answering ⟨addr, port⟩)
    (hreserved : isReserved server.controller.ports port = true)
    (hnobody : ∀ other, server.held other port = false) :
    PortsInv ports (server.setHeld session port true) := by
  refine ⟨h.table, ?_, ?_, ?_⟩
  · intro other otherPort htrue
    rw [setHeld_held] at htrue
    split_ifs at htrue with hboth
    · rw [hboth.2]
      exact hreserved
    · exact h.reserved other otherPort htrue
  · intro other other' otherPort htrue htrue'
    rw [setHeld_held] at htrue htrue'
    split_ifs at htrue htrue' with hboth hboth' hboth'
    · rw [hboth.1, hboth'.1]
    · rw [hboth.2, hnobody] at htrue'
      cases htrue'
    · rw [hboth'.2, hnobody] at htrue
      cases htrue
    · exact h.unique other other' otherPort htrue htrue'
  · intro other otherPort htrue
    rw [setHeld_held] at htrue
    split_ifs at htrue with hboth
    · obtain ⟨rfl, rfl⟩ := hboth
      exact .inl ⟨addr, hpc⟩
    · exact h.answered other otherPort htrue

theorem PortsInv.pasvReserve (h : PortsInv ports server) (hnodup : ports.Nodup)
    (hpc : (server.sessions session).pc = .idle) (serverAddr : UInt32) :
    PortsInv ports (pasvReserve server session serverAddr) := by
  have hnext := h.withController h.table.reserve
  unfold Ftp.pasvReserve
  dsimp only
  split_ifs with hzero
  · exact hnext
  rcases getAvailablePortForPassiveMode_cases server.controller with
    heq | ⟨index, metadata, hget, havailable, hfree, heq⟩
  · rw [heq] at hzero
    exact absurd rfl hzero
  -- what is held is reserved, and this port was not
  have hnobody : ∀ other, server.held other metadata.port = false := by
    intro other
    by_contra hheld
    have hreserved := h.reserved other metadata.port (by simpa using hheld)
    rw [h.table.not_reserved hnodup hget havailable hfree] at hreserved
    cases hreserved
  have hreserved : isReserved (getAvailablePortForPassiveMode server.controller).1.ports
      metadata.port = true := by
    rw [isReserved_iff, heq]
    refine ⟨index, { metadata with reserved := true }, ?_, rfl, rfl⟩
    dsimp only
    rw [List.getElem?_modify, hget, Option.map_eq_map, Option.map_some, if_pos rfl]
  -- the thread moves to the answer first, then it takes the port
  rw [show (getAvailablePortForPassiveMode server.controller).2 = metadata.port by rw [heq]]
  refine (hnext.setSession (fun addr port _ => ?_) _).setHeld_true serverAddr ?_ hreserved ?_
  · rw [FtpServer.withController, hpc]
    exact nofun
  · dsimp only [FtpServer.setPc, FtpServer.setSession]
    rw [Function.update_self]
  · intro other
    dsimp only [FtpServer.setPc, FtpServer.setSession, FtpServer.withController]
    rw [hnobody other, Bool.false_and]

/-- A PASV that fails after it has reserved its port. -/
theorem PortsInv.pasvFails (h : PortsInv ports server) {addr : FTPConnectAddr}
    (hpc : (server.sessions session).pc = .answering addr) (pc : ControlPc) :
    PortsInv ports ((server.setPc session pc).setHeld session addr.port false) := by
  refine (h.setHeld_false session addr.port).setSession ?_ _
  intro addr' port' hheld hanswering
  -- the only port this thread could answer with is the one it gives back
  obtain rfl : addr = ⟨addr', port'⟩ := ControlPc.answering.inj (hpc.symm.trans hanswering)
  rw [setHeld_held, if_pos ⟨rfl, rfl⟩] at hheld
  cases hheld

theorem PortsInv.pasvSent (h : PortsInv ports server) {addr : FTPConnectAddr}
    (hpc : (server.sessions session).pc = .answering addr)
    (hheld : server.held session addr.port = true) :
    PortsInv ports (pasvAnswer server session addr .sent) := by
  refine ⟨h.table, h.reserved, h.unique, ?_⟩
  intro other port hother
  dsimp only [pasvAnswer, FtpServer.setSession]
  by_cases hport : port = addr.port
  -- the answer goes to the one session that holds the port
  · subst hport
    rw [h.unique other session _ hother hheld]
    exact .inr (Function.update_self ..)
  · rw [Function.update_of_ne hport]
    refine (h.answered other port hother).imp_left ?_
    rintro ⟨addr', hanswering⟩
    have hne : other ≠ session := by
      rintro rfl
      rw [hpc] at hanswering
      cases hanswering
      exact hport rfl
    exact ⟨addr', by rw [Function.update_of_ne hne]; exact hanswering⟩

/-- The thread of a session moves on from a place that is not the answer of PASV. -/
theorem PortsInv.setPc (h : PortsInv ports server)
    (hpc : ∀ addr, (server.sessions session).pc ≠ .answering addr) (pc : ControlPc) :
    PortsInv ports (server.setPc session pc) :=
  h.setSession (fun _ _ _ => hpc _) _

theorem controlStep_inv (h : PortsInv ports server) (hnodup : ports.Nodup) (e : ServerEvent)
    (hheld : StillHeld server e) : PortsInv ports (controlStep server e) := by
  cases e with
  | pasv session serverAddr =>
    unfold controlStep
    dsimp only
    split
    · rename_i hpc
      exact h.pasvReserve hnodup hpc serverAddr
    · exact h
  | answer session result =>
    unfold controlStep
    dsimp only
    split
    · rename_i addr hpc
      cases result with
      | sent =>
        exact h.pasvSent hpc (hheld session addr.port (by rw [neededPort, hpc]))
      | noDescription => exact h.pasvFails hpc .idle
      | notSent => exact h.pasvFails hpc .ended
    · exact h
  | port session addr =>
    unfold controlStep
    dsimp only
    split
    · rename_i hpc
      exact h.setSession (fun _ _ _ => by rw [hpc]; exact nofun) _
    · exact h
  | transfer session env =>
    -- a transfer without settings ends at once, and else it cleans up first
    have hclean := h.releases (dataConnectionsToClose_releases server.controller env)
    unfold controlStep
    dsimp only
    split
    · exact h
    · rename_i hpc _
      exact hclean.setPc (fun _ => by rw [FtpServer.withController, hpc]; exact nofun) _
    · exact h
  | ask session env =>
    have hasked := h.releases (getDataConnectionForControlThreadOrAdd_releases server.controller
      env (server.sessions session).settings)
    unfold controlStep
    dsimp only
    split
    · rename_i hpc
      split
      · exact hasked
      · exact hasked.setPc (fun _ => by rw [FtpServer.withController, hpc]; exact nofun) _
    · exact h
  | giveUp session =>
    unfold controlStep
    dsimp only
    split
    · rename_i hpc
      exact h.setPc (fun _ => by rw [hpc]; exact nofun) _
    · exact h
  | getDescriptor session env =>
    unfold controlStep
    dsimp only
    split
    · rename_i connection hpc
      refine (h.releases ?_).setPc (fun _ => by rw [FtpServer.withController, hpc]; exact nofun) _
      rw [dataConnectionGetDescriptorToSendTo_ports]
      exact .refl _
    · exact h
  | finish session =>
    unfold controlStep
    dsimp only
    split
    · rename_i hpc
      exact h.setPc (fun _ => by rw [hpc]; exact nofun) _
    · exact h
  | close session env =>
    unfold controlStep
    dsimp only
    split
    · rename_i connection hpc
      exact (h.releases (dataConnectionClose_releases server.controller env connection)).setPc
        (fun _ => by rw [FtpServer.withController, hpc]; exact nofun) _
    · exact h
  | start listener => exact h
  | poll listener env => exact h
  | accept listener env => exact h
  | addDescriptor listener descriptor env => exact h
  | clean listener env => exact h

theorem listenerStep_inv (h : PortsInv ports server) (e : ServerEvent) :
    PortsInv ports (listenerStep ports server e) := by
  cases e with
  | start listener =>
    unfold listenerStep
    dsimp only
    split
    · rename_i port _ hport
      exact (h.withController (h.table.setAvailable hport)).setListener _ _
    · exact h
  | poll listener env =>
    unfold listenerStep
    dsimp only
    split
    · exact h.releases (dataConnectionsToClose_releases server.controller env)
    · exact h
  | accept listener env =>
    unfold listenerStep
    dsimp only
    split
    · exact (h.releases (getDataConnectionForDataThreadOrAddPassive_releases server.controller
        env listener)).setListener _ _
    · exact h
  | addDescriptor listener descriptor env =>
    unfold listenerStep
    dsimp only
    split
    · refine (h.releases ?_).setListener _ _
      rw [dataControllerAddDescriptor_ports]
      exact .refl _
    · exact h
  | clean listener env =>
    unfold listenerStep
    dsimp only
    split
    · exact (h.releases (dataConnectionsToClose_releases server.controller env)).setListener _ _
    · exact h
  | _ => exact h

/-- **Every operation keeps the ports with those who hold them.** -/
theorem portsInv_step (controlPort : UInt16) (server : FtpServer) (e : ServerEvent)
    (h : PortsInv (passivePorts controlPort) server) (hheld : StillHeld server e) :
    PortsInv (passivePorts controlPort) (serverStep controlPort server e) := by
  unfold serverStep
  split_ifs
  · exact listenerStep_inv h e
  · exact controlStep_inv h (passivePorts_nodup controlPort) e hheld

/-- Who asks with a port it holds gets a connection of its own. -/
theorem toItsOwner_of_held (h : PortsInv ports server) (e : ServerEvent)
    (hheld : StillHeld server e) : ToItsOwner server e := by
  cases e with
  | ask session env =>
    intro hpc connection port hsome hport
    -- the connection has the port of the settings it was asked for with
    obtain ⟨addr, hsettings⟩ := getDataConnectionForControlThreadOrAdd_identifier hsome hport
    have hsession := hheld session port (by rw [neededPort, hpc, hsettings])
    rcases h.answered session port hsession with ⟨addr', hanswering⟩ | hanswered
    · rw [hpc] at hanswering
      cases hanswering
    · exact hanswered
  | _ => trivial

/-- **Data connections are not handed to another client**, in every run in which PASV answers
and transfers ask with ports that are still held. -/
theorem neverHandedOver_of_along (controlPort : UInt16) (memory : Pointer → DataConnection)
    (events : List ServerEvent)
    (h : Along (serverStep controlPort) StillHeld (startServer memory) events) :
    NeverHandedOver controlPort memory events :=
  h.imp (portsInv_step controlPort) (fun _ e hinv hheld => toItsOwner_of_held hinv e hheld)
    (portsInv_start (passivePorts controlPort) memory)

/-- Memory that was never used. -/
def noMemory : Pointer → DataConnection :=
  fun _ => ⟨.empty, .missing, 0, none, .automatic, none, 0⟩

/-- A call of a thread at some time, with the memory the next `malloc` returns. -/
def callAt (now thread pointer : ℕ) : CallEnv where
  now _ := some now
  self := thread
  malloc := some pointer
  push := true
  socket := none
  connect := .pending
  kill := true
  freed := noMemory

/-- Session 1 gets port 2122 with PASV, its client connects while it waits, and it sends a file
and closes the connection. -/
def passiveTransfer : List ServerEvent :=
  [.start 0, .pasv 1 0x7F000001, .answer 1 .sent,
    .transfer 1 (callAt 1 1 7), .ask 1 (callAt 2 1 7),
    .accept 0 (callAt 3 9 8), .addDescriptor 0 20 (callAt 3 9 8),
    .ask 1 (callAt 4 1 8), .getDescriptor 1 (callAt 4 1 8), .close 1 (callAt 5 1 8),
    .clean 0 (callAt 6 9 8)]

theorem passiveTransfer_neverHandedOver : NeverHandedOver 2121 noMemory passiveTransfer :=
  neverHandedOver_of_along 2121 noMemory passiveTransfer (by decide +kernel)

/-- After that, session 2 gets port 2122 with PASV, session 1 starts a second transfer
with its old settings, and the client of session 2 connects. -/
def releasedPort : List ServerEvent :=
  passiveTransfer ++
    [.pasv 2 0x7F000001, .answer 2 .sent,
      .transfer 1 (callAt 7 1 8), .ask 1 (callAt 8 1 8),
      .accept 0 (callAt 9 9 10), .addDescriptor 0 21 (callAt 9 9 10)]

theorem releasedPort_handedOver :
    ¬ NeverHandedOver 2121 noMemory (releasedPort ++ [.ask 1 (callAt 10 1 10)]) := by
  intro h
  have howner := along_iff.1 h releasedPort (.ask 1 (callAt 10 1 10)) [] rfl
  have hanswered := howner (by decide +kernel) 8 2122 (by decide +kernel) (by decide +kernel)
  revert hanswered
  decide +kernel

end SimpleServer.Ftp
