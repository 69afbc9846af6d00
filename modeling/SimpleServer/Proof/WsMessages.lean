import SimpleServer.Proof.WsRounds

/-!
# WebSocket messages are put together from their frames

* `messagesSoFar_step`: one more frame, and what is delivered then.
* `runsOn_of_goesOn`: what is known of a run that no frame ends.
* `handlesMessages`: **what the listener does with any sequence of frames**.
-/

namespace SimpleServer.Ws

open SimpleServer.Utils

/-! ## What is asked -/

/-- The first frame has a type, the others continue. -/
def StartsMessage (frames : List WebSocketRawMessage) : Prop :=
  ∃ first rest, frames = first :: rest ∧
    (first.opCode = wsOpcodeText ∨ first.opCode = wsOpcodeBin) ∧
    ∀ frame ∈ rest, frame.opCode = wsOpcodeCont

/-- The frames of one message, from the first one to the next one with `fin`. -/
def WholeMessage (frames : List WebSocketRawMessage) : Prop :=
  StartsMessage frames ∧ ∃ front last, frames = front ++ [last] ∧ last.fin = true ∧
    ∀ frame ∈ front, frame.fin = false

/-- The messages that were passed to the function of the connection. -/
def deliveries (outputs : List ListenerOutput) : List ReceivedMessage :=
  outputs.filterMap fun output =>
    match output with
    | .delivered message => some message
    | .sent _ => none

/-- A frame of the peer, and whether an answer to it can be sent. -/
abbrev PeerFrame := WebSocketRawMessage × Bool

def framesOf (inputs : List PeerFrame) : List WebSocketRawMessage := inputs.map Prod.fst

section Asked

variable {A : Type}

/-- The listener after some frames. -/
def listen (env : ListenerEnv A) (application : A) (inputs : List PeerFrame) :
    ListenerState A × List ListenerOutput :=
  wsListenerFunction env (startListener env application)
    (inputs.map fun input => ⟨.ok input.1, input.2⟩)

/-- What ends the loop. -/
inductive Ends (env : ListenerEnv A) (application : A) (before : List PeerFrame)
    (input : PeerFrame) : Prop
  | offence (h : Offence (framesOf before) input.1)
  | refused (message : ReceivedMessage)
      (hmessage : completedBy (framesOf before) input.1 = some message)
      (h : Refuses env (listen env application before).1 message)
  | pongNotSent (hping : input.1.opCode = wsOpcodePing) (h : input.2 = false)

/-- None of the frames ends the loop. -/
def GoesOn (env : ListenerEnv A) (application : A) (inputs : List PeerFrame) : Prop :=
  ∀ before input after, inputs = before ++ input :: after → ¬ Ends env application before input

/-- What a listener does with frames of the peer. The frame that closes the connection is a CLOSE
with the code and the text of a reason that is short enough for it (`closeFrame_spec`). -/
structure HandlesMessages (env : ListenerEnv A) (application : A) : Prop where
  /-- There is a first frame that ends the loop, or none. -/
  exhaustive : ∀ inputs, GoesOn env application inputs ∨ ∃ before input after,
    inputs = before ++ input :: after ∧ GoesOn env application before ∧
      Ends env application before input
  running : ∀ inputs, GoesOn env application inputs →
    (listen env application inputs).1.running = true
  /-- A frame is answered before the next one is read. -/
  answered : ∀ before input, GoesOn env application (before ++ [input]) →
    (listen env application (before ++ [input])).2 =
      (listen env application before).2 ++ answerTo (framesOf before) input.1
  /-- What is delivered are the messages of the data frames, in order. -/
  delivered : ∀ inputs, GoesOn env application inputs →
    ∃ messages : List (List WebSocketRawMessage),
    (framesOf inputs).filter isData = messages.flatten ++ openMessage (framesOf inputs) ∧
    (∀ frames ∈ messages, WholeMessage frames) ∧
    deliveries (listen env application inputs).2 = messages.map messageOf
  /-- An offence is answered with one close frame, and nothing happens afterwards. -/
  offence : ∀ before input after, GoesOn env application before →
    Offence (framesOf before) input.1 →
    (listen env application (before ++ input :: after)).1.running = false ∧
    ∃ reason : CloseReason, reason.Short ∧ (listen env application (before ++ input :: after)).2 =
      (listen env application before).2 ++ [.sent (closeFrame reason)]
  refused : ∀ before input after message, GoesOn env application before →
    ¬ Offence (framesOf before) input.1 →
    completedBy (framesOf before) input.1 = some message →
    Refuses env (listen env application before).1 message →
    (listen env application (before ++ input :: after)).1.running = false ∧
    ∃ reason : CloseReason, reason.Short ∧ (listen env application (before ++ input :: after)).2 =
      (listen env application before).2 ++ [.delivered message, .sent (closeFrame reason)]
  pongNotSent : ∀ before input after, GoesOn env application before →
    ¬ Offence (framesOf before) input.1 → input.1.opCode = wsOpcodePing → input.2 = false →
    (listen env application (before ++ input :: after)).1.running = false ∧
    ∃ reason : CloseReason, reason.Short ∧ (listen env application (before ++ input :: after)).2 =
      (listen env application before).2 ++
        [.sent ⟨true, wsOpcodePong, input.1.payload, input.1.rsvBytes⟩,
          .sent (closeFrame reason)]

end Asked

/-! ## The messages of a sequence of frames -/

theorem openMessage_fin {before : List WebSocketRawMessage} {frame : WebSocketRawMessage}
    (h : frame ∈ openMessage before) : frame.fin = false := by
  simpa using List.mem_rtakeWhile_imp h

/-- The data frames are whole messages and the start of one, and these messages were
delivered. -/
def MessagesSoFar (frames : List WebSocketRawMessage) (outputs : List ListenerOutput) : Prop :=
  ∃ messages : List (List WebSocketRawMessage),
    frames.filter isData = messages.flatten ++ openMessage frames ∧
    (∀ frames ∈ messages, WholeMessage frames) ∧
    deliveries outputs = messages.map messageOf

/-- The frames that are not finished start a message, if there are any. -/
def OpenStarts (frames : List WebSocketRawMessage) : Prop :=
  openMessage frames ≠ [] → StartsMessage (openMessage frames)

theorem startsMessage_append {frames : List WebSocketRawMessage} {frame : WebSocketRawMessage}
    (h : frames ≠ [] → StartsMessage frames) (hfits : FitsIn frames frame) :
    StartsMessage (frames ++ [frame]) := by
  rcases hfits with ⟨hop, hframes⟩ | ⟨hop, rfl⟩
  · obtain ⟨first, rest, rfl, hfirst, hrest⟩ := h hframes
    refine ⟨first, rest ++ [frame], rfl, hfirst, ?_⟩
    intro other hother
    rcases List.mem_append.1 hother with hother | hother
    · exact hrest other hother
    · rw [List.mem_singleton.1 hother]
      exact hop
  · exact ⟨frame, [], rfl, hop, by simp⟩

theorem deliveries_append (first second : List ListenerOutput) :
    deliveries (first ++ second) = deliveries first ++ deliveries second :=
  List.filterMap_append

/-- The step lemma for the messages: a frame that is no offence, with its answer. -/
theorem messagesSoFar_step {before : List WebSocketRawMessage} {frame : WebSocketRawMessage}
    {outputs : List ListenerOutput} (hlegal : ¬ Offence before frame)
    (hstarts : OpenStarts before) (h : MessagesSoFar before outputs) :
    OpenStarts (before ++ [frame]) ∧
      MessagesSoFar (before ++ [frame]) (outputs ++ answerTo before frame) := by
  obtain ⟨messages, hframes, hwhole, hdelivered⟩ := h
  unfold OpenStarts MessagesSoFar
  rw [openMessage_append, deliveries_append, List.filter_append]
  rcases legal_cases hlegal with ⟨hdata, hfits⟩ | ⟨-, hdata, -⟩
  · have hping := isData_not_ping hdata
    have hstarted := startsMessage_append hstarts hfits
    rw [if_pos hdata, List.filter_cons_of_pos hdata, List.filter_nil, hframes]
    unfold answerTo completedBy
    rw [if_neg hping, hdata, Bool.true_and]
    by_cases hfin : frame.fin = true
    · -- one more message is whole
      rw [if_pos hfin, if_pos hfin]
      refine ⟨fun hne => absurd rfl hne, messages ++ [openMessage before ++ [frame]], by simp,
        ?_, by rw [hdelivered]; simp [deliveries]⟩
      intro frames hmem
      rcases List.mem_append.1 hmem with hmem | hmem
      · exact hwhole frames hmem
      · rw [List.mem_singleton.1 hmem]
        exact ⟨hstarted, openMessage before, frame, rfl, hfin, fun _ => openMessage_fin⟩
    · rw [if_neg hfin, if_neg hfin]
      refine ⟨fun _ => hstarted, messages, by simp, hwhole, ?_⟩
      rw [hdelivered]
      simp [deliveries]
  · have hnone : deliveries (answerTo before frame) = [] := by
      unfold answerTo completedBy
      rw [hdata, Bool.false_and, if_neg Bool.false_ne_true]
      split
      · rfl
      · rfl
    rw [if_neg (by simp [hdata]), List.filter_cons_of_neg (by simp [hdata]), List.filter_nil,
      List.append_nil, hnone, List.append_nil]
    exact ⟨hstarts, messages, hframes, hwhole, hdelivered⟩

/-! ## Runs -/

section Runs

variable {A : Type} {zlib : Zlib} {utf8 : Utf8proc}
  {function : A → ReceivedMessage → ExtensionSendState → A × WebSocketAction}
  {state : ListenerState A} {application : A}

theorem wsListenerFunction_append (env : ListenerEnv A) (first second : List ListenerInput) :
    ∀ state : ListenerState A, wsListenerFunction env state (first ++ second) =
      ((wsListenerFunction env (wsListenerFunction env state first).1 second).1,
        (wsListenerFunction env state first).2 ++
          (wsListenerFunction env (wsListenerFunction env state first).1 second).2) := by
  induction first with
  | nil => intro state; rfl
  | cons input first ih =>
    intro state
    rw [List.cons_append, wsListenerFunction_cons, wsListenerFunction_cons, ih]
    dsimp only
    rw [List.append_assoc]

/-- Nothing happens after the loop. -/
theorem wsListenerFunction_stopped (env : ListenerEnv A) (inputs : List ListenerInput)
    (h : state.running = false) : wsListenerFunction env state inputs = (state, []) := by
  induction inputs with
  | nil => rfl
  | cons input inputs ih =>
    have hstep : listenerStep env state input = (state, []) := by
      unfold listenerStep
      rw [if_pos (by simp [h])]
    rw [wsListenerFunction_cons, hstep]
    dsimp only
    rw [ih]
    rfl

theorem listen_append (env : ListenerEnv A) (before : List PeerFrame) (input : PeerFrame)
    (after : List PeerFrame) :
    listen env application (before ++ input :: after) =
      let round := listenerStep env (listen env application before).1 ⟨.ok input.1, input.2⟩
      let rest := wsListenerFunction env round.1 (after.map fun input => ⟨.ok input.1, input.2⟩)
      (rest.1, (listen env application before).2 ++ (round.2 ++ rest.2)) := by
  unfold listen
  rw [List.map_append, List.map_cons, wsListenerFunction_append, wsListenerFunction_cons]

/-- The round of the last frame. -/
theorem listen_concat (env : ListenerEnv A) (before : List PeerFrame) (input : PeerFrame) :
    listen env application (before ++ [input]) =
      let round := listenerStep env (listen env application before).1 ⟨.ok input.1, input.2⟩
      (round.1, (listen env application before).2 ++ round.2) := by
  rw [listen_append]
  simp [wsListenerFunction]

/-- A round that ends the loop is the last thing that happens. -/
theorem listen_ended {env : ListenerEnv A} {before : List PeerFrame} {input : PeerFrame}
    {state' : ListenerState A} {outputs : List ListenerOutput}
    (h : listenerStep env (listen env application before).1 ⟨.ok input.1, input.2⟩ =
      (state', outputs)) (hstopped : state'.running = false) (after : List PeerFrame) :
    (listen env application (before ++ input :: after)).1.running = false ∧
      (listen env application (before ++ input :: after)).2 =
        (listen env application before).2 ++ outputs := by
  rw [listen_append, h]
  dsimp only
  rw [wsListenerFunction_stopped env _ hstopped]
  exact ⟨hstopped, by rw [List.append_nil]⟩

theorem goesOn_append {env : ListenerEnv A} (before : List PeerFrame) (input : PeerFrame) :
    GoesOn env application (before ++ [input]) ↔
      GoesOn env application before ∧ ¬ Ends env application before input := by
  constructor
  · intro h
    refine ⟨?_, h before input [] rfl⟩
    intro front other rest hbefore
    apply h front other (rest ++ [input])
    rw [hbefore, List.append_assoc, List.cons_append]
  · rintro ⟨hbefore, hinput⟩ front other rest hfront
    -- the frame that ends the loop is the last one or one before it
    rcases List.eq_nil_or_concat rest with rfl | ⟨rest, last, rfl⟩
    · obtain ⟨rfl, hother⟩ := List.append_inj' hfront rfl
      cases hother
      exact hinput
    · have hsplit : before ++ [input] = (front ++ other :: rest) ++ [last] := by
        rw [hfront, List.append_assoc, List.cons_append, List.concat_eq_append]
      exact hbefore front other rest (List.append_inj' hsplit rfl).1

/-- There is a first frame that ends the loop, or none. -/
theorem goesOn_or_ends (env : ListenerEnv A) (inputs : List PeerFrame) :
    GoesOn env application inputs ∨ ∃ before input after,
      inputs = before ++ input :: after ∧ GoesOn env application before ∧
        Ends env application before input := by
  induction inputs using List.reverseRecOn with
  | nil =>
    left
    intro before input after h
    simp at h
  | append_singleton before input ih =>
    rcases ih with hbefore | ⟨front, other, rest, rfl, hfront, hother⟩
    · by_cases hends : Ends env application before input
      · exact .inr ⟨before, input, [], rfl, hbefore, hends⟩
      · exact .inl ((goesOn_append before input).2 ⟨hbefore, hends⟩)
    · exact .inr ⟨front, other, rest ++ [input], by simp, hfront, hother⟩

theorem framesOf_append (before : List PeerFrame) (input : PeerFrame) :
    framesOf (before ++ [input]) = framesOf before ++ [input.1] := by
  unfold framesOf
  rw [List.map_append, List.map_cons, List.map_nil]

/-- One more frame of a run that goes on. -/
theorem listenerStep_of_not_ends {before : List PeerFrame} {input : PeerFrame}
    (hrunning : (listen (withoutExtensions zlib utf8 function) application before).1.running =
      true)
    (hreceiving : (listen (withoutExtensions zlib utf8 function) application before).1.receiving =
      receivingOf (openMessage (framesOf before)))
    (h : ¬ Ends (withoutExtensions zlib utf8 function) application before input) :
    ∃ state', listenerStep (withoutExtensions zlib utf8 function)
        (listen (withoutExtensions zlib utf8 function) application before).1
        ⟨.ok input.1, input.2⟩ = (state', answerTo (framesOf before) input.1) ∧
      state'.running = true ∧
      state'.receiving = receivingOf (openMessage (framesOf before ++ [input.1])) := by
  apply listenerStep_goesOn hrunning hreceiving
  · exact fun hoffence => h (.offence hoffence)
  · exact fun message hmessage hrefuses => h (.refused message hmessage hrefuses)
  · intro hping
    by_contra hsends
    exact h (.pongNotSent hping (by simpa using hsends))

/-- What is known of a run that goes on. -/
structure RunsOn (inputs : List PeerFrame) (state : ListenerState A)
    (outputs : List ListenerOutput) : Prop where
  running : state.running = true
  receiving : state.receiving = receivingOf (openMessage (framesOf inputs))
  starts : OpenStarts (framesOf inputs)
  messages : MessagesSoFar (framesOf inputs) outputs

theorem runsOn_of_goesOn (inputs : List PeerFrame)
    (h : GoesOn (withoutExtensions zlib utf8 function) application inputs) :
    RunsOn inputs (listen (withoutExtensions zlib utf8 function) application inputs).1
      (listen (withoutExtensions zlib utf8 function) application inputs).2 := by
  induction inputs using List.reverseRecOn with
  | nil =>
    exact ⟨rfl, rfl, fun hne => absurd rfl hne, [], rfl, by simp, rfl⟩
  | append_singleton before input ih =>
    obtain ⟨hbefore, hinput⟩ := (goesOn_append before input).1 h
    have hruns := ih hbefore
    obtain ⟨state', hstep, hrunning, hreceiving⟩ :=
      listenerStep_of_not_ends hruns.running hruns.receiving hinput
    obtain ⟨hstarts, hmessages⟩ := messagesSoFar_step
      (fun hoffence => hinput (.offence hoffence)) hruns.starts hruns.messages
    rw [listen_concat, hstep]
    rw [← framesOf_append] at hreceiving hstarts hmessages
    exact ⟨hrunning, hreceiving, hstarts, hmessages⟩

/-- **What the listener does with any sequence of frames.** -/
theorem handlesMessages (zlib : Zlib) (utf8 : Utf8proc)
    (function : A → ReceivedMessage → ExtensionSendState → A × WebSocketAction)
    (application : A) :
    HandlesMessages (withoutExtensions zlib utf8 function) application where
  exhaustive := goesOn_or_ends _
  running := by
    intro inputs h
    exact (runsOn_of_goesOn inputs h).running
  answered := by
    intro before input h
    obtain ⟨hbefore, hinput⟩ := (goesOn_append before input).1 h
    have hruns := runsOn_of_goesOn before hbefore
    obtain ⟨state', hstep, -, -⟩ :=
      listenerStep_of_not_ends hruns.running hruns.receiving hinput
    rw [listen_concat, hstep]
  delivered := by
    intro inputs h
    exact (runsOn_of_goesOn inputs h).messages
  offence := by
    intro before input after hbefore hoffence
    have hruns := runsOn_of_goesOn before hbefore
    obtain ⟨reason, hshort, hstep⟩ :=
      listenerStep_offence hruns.running hruns.receiving hoffence
    obtain ⟨hstopped, houtputs⟩ := listen_ended hstep rfl after
    exact ⟨hstopped, reason, hshort, houtputs⟩
  refused := by
    intro before input after message hbefore hlegal hmessage hrefuses
    have hruns := runsOn_of_goesOn before hbefore
    obtain ⟨state', reason, hshort, hhandle, hstopped⟩ := handleMessage_refused hrefuses
    rw [← listenerStep_complete hruns.running hruns.receiving hlegal hmessage] at hhandle
    obtain ⟨hstopped, houtputs⟩ := listen_ended hhandle hstopped after
    exact ⟨hstopped, reason, hshort, houtputs⟩
  pongNotSent := by
    intro before input after hbefore hlegal hping hsends
    have hruns := runsOn_of_goesOn before hbefore
    obtain ⟨frame, rfl⟩ : ∃ frame, input = (frame, false) := ⟨input.1, by rw [← hsends]⟩
    rcases legal_cases hlegal with ⟨hdata, -⟩ | ⟨hops, -, hfin, hsize⟩
    · exact absurd hping (isData_not_ping hdata)
    · have hstep := @listenerStep_control A zlib utf8 function _ frame false hruns.running hops
        hfin hsize
      rw [if_pos hping, if_neg Bool.false_ne_true] at hstep
      obtain ⟨hstopped, houtputs⟩ :=
        @listen_ended A application _ before (frame, false) _ _ hstep rfl after
      exact ⟨hstopped, _, by decide, houtputs⟩

end Runs

/-- A text in two frames, with a PING between them. -/
def pingBetween : List PeerFrame :=
  [(⟨false, wsOpcodeText, ⟨some (ascii "a"), by decide⟩, 0⟩, true),
    (⟨true, wsOpcodePing, ⟨some [9], by decide⟩, 0⟩, true),
    (⟨true, wsOpcodeCont, ⟨some (ascii "b"), by decide⟩, 0⟩, true)]

/-- A listener that counts its messages. -/
def countingListener : ListenerEnv ℕ :=
  withoutExtensions ⟨fun buffer _ => buffer, fun bytes _ => some bytes⟩ default
    fun count _ _ => (count + 1, .continue)

theorem countingListener_goesOn {before : List PeerFrame} {frame : WebSocketRawMessage}
    (hbefore : GoesOn countingListener 0 before) (h : ¬ Offence (framesOf before) frame) :
    GoesOn countingListener 0 (before ++ [(frame, true)]) := by
  refine (goesOn_append before _).2 ⟨hbefore, ?_⟩
  intro hends
  cases hends with
  | offence hoffence => exact h hoffence
  | refused message hmessage hrefuses => exact hrefuses rfl
  | pongNotSent hping hsends => cases hsends

theorem pingBetween_goesOn : GoesOn countingListener 0 pingBetween := by
  have hstart : GoesOn countingListener 0 [] := by
    intro before input after h
    simp at h
  refine countingListener_goesOn (countingListener_goesOn (countingListener_goesOn hstart ?_) ?_)
    ?_
  · intro h
    cases h with
    | noStart hop hopen => exact absurd hop (by decide)
    | insideMessage hop hopen => exact hopen rfl
    | fragmentedControl hop hfin => exact absurd hop (by decide)
    | largeControl hop hsize => exact absurd hop (by decide)
    | notUtf8 message hmessage htext hinvalid => cases hmessage
    | close hop => exact absurd hop (by decide)
    | unknownOpcode hop => exact absurd hop (by decide)
  · intro h
    cases h with
    | noStart hop hopen => exact absurd hop (by decide)
    | insideMessage hop hopen => exact absurd hop (by decide)
    | fragmentedControl hop hfin => cases hfin
    | largeControl hop hsize => exact absurd hsize (by decide)
    | notUtf8 message hmessage htext hinvalid => cases hmessage
    | close hop => exact absurd hop (by decide)
    | unknownOpcode hop => exact absurd hop (by decide)
  · intro h
    cases h with
    | noStart hop hopen => cases hopen
    | insideMessage hop hopen => exact absurd hop (by decide)
    | fragmentedControl hop hfin => cases hfin
    | largeControl hop hsize => exact absurd hsize (by decide)
    | notUtf8 message hmessage htext hinvalid =>
      cases hmessage
      exact hinvalid ⟨['a', 'b'], by decide⟩
    | close hop => exact absurd hop (by decide)
    | unknownOpcode hop => exact absurd hop (by decide)

theorem pingBetween_delivered :
    (listen countingListener 0 pingBetween).1.running = true ∧
      (listen countingListener 0 pingBetween).2 =
        (listen countingListener 0 (pingBetween.take 2)).2 ++ [.delivered ⟨true, ascii "ab"⟩] := by
  have hhandles : HandlesMessages countingListener 0 := handlesMessages _ _ _ _
  exact ⟨hhandles.running pingBetween pingBetween_goesOn,
    hhandles.answered (pingBetween.take 2) _ pingBetween_goesOn⟩

end SimpleServer.Ws
