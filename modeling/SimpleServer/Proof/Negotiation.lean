import SimpleServer.Http.ParserStrings
import SimpleServer.Lib.Base64
import SimpleServer.Proof.NumbersExact
import SimpleServer.Ws.Handshake

/-!
# Negotiating `permessage-deflate`

An offer is a name and parameters. The window of the client is only checked for the size of its
type, so a handshake can agree on a window that the compressors do not have.

* `parseWsExtensionValue_eq_some`: the offers that are taken, and their options.
* `handleWsHandshake_ok`: a handshake that succeeds.
* `parseWsExtensions_printed`: the extensions of the answer are read back.
* `negotiation_iff`: **when a handshake agrees on windows that work.**
-/

namespace SimpleServer.Ws

open Lib Utils Hpack Http

variable {Uri : Type} {p : HeadParser Uri} {blank : UInt8 → Prop} [DecidablePred blank]

/-! ## Parameters -/

/-- The name and the value of a parameter. -/
def paramParts (p : HeadParser Uri) (param : Bytes) : Bytes × Bytes :=
  (p.tstrSplit (p.tstrViewLstrip param) (ascii "=")).getD (p.tstrViewLstrip param, [])

/-- The bits that a parameter asks for; without a value these are all. -/
def givenBits (value : Bytes) : ℕ :=
  if value = [] then defaultMaxWindowBits else (parseU64 value).getD 0

/-- A value is left out, or a number in a range. -/
def BitsWithin (low high : ℕ) (value : Bytes) : Prop :=
  value = [] ∨ ∃ bits, parseU64 value = some bits ∧ low ≤ bits ∧ bits ≤ high

/-- A parameter that is understood. -/
def ParamAllowed (param : Bytes × Bytes) : Prop :=
  param.1 = ascii "server_no_context_takeover" ∧ param.2 = [] ∨
    param.1 = ascii "server_max_window_bits" ∧ BitsWithin 8 15 param.2 ∨
    param.1 = ascii "client_no_context_takeover" ∧ param.2 = [] ∨
    param.1 = ascii "client_max_window_bits" ∧ BitsWithin 0 255 param.2

/-- What a parameter does to one side. -/
def WsDeflateSingleOption.withParam (option : WsDeflateSingleOption) (takeoverName bitsName : Bytes)
    (param : Bytes × Bytes) : WsDeflateSingleOption where
  noContextTakeover := if param.1 = takeoverName then true else option.noContextTakeover
  maxWindowBits := if param.1 = bitsName then givenBits param.2 else option.maxWindowBits

/-- What a parameter does. -/
def WsDeflateOptions.withParam (options : WsDeflateOptions) (param : Bytes × Bytes) :
    WsDeflateOptions where
  client := options.client.withParam (ascii "client_no_context_takeover")
    (ascii "client_max_window_bits") param
  server := options.server.withParam (ascii "server_no_context_takeover")
    (ascii "server_max_window_bits") param

theorem givenBits_of_parsed {value : Bytes} {bits : ℕ} (h : parseU64 value = some bits) :
    givenBits value = bits := by
  have hne : value ≠ [] := by
    rintro rfl
    cases h
  rw [givenBits, if_neg hne, h, Option.getD_some]

/-- The four names differ. -/
theorem paramNames_ne :
    ascii "server_no_context_takeover" ≠ ascii "server_max_window_bits" ∧
      ascii "server_no_context_takeover" ≠ ascii "client_no_context_takeover" ∧
      ascii "server_no_context_takeover" ≠ ascii "client_max_window_bits" ∧
      ascii "server_max_window_bits" ≠ ascii "client_no_context_takeover" ∧
      ascii "server_max_window_bits" ≠ ascii "client_max_window_bits" ∧
      ascii "client_no_context_takeover" ≠ ascii "client_max_window_bits" := by
  decide

/-- The window bits of a parameter are left out, or parsed and checked. -/
theorem bitsBranch_eq_some (refused : ℕ → Prop) [DecidablePred refused] (low high : ℕ)
    (result : ℕ → WsDeflateOptions) {value : Bytes} {options' : WsDeflateOptions}
    (hrefused : ∀ bits, refused bits ↔ ¬ (low ≤ bits ∧ bits ≤ high)) :
    (if value.length ≠ 0 then
      match parseU64 value with
      | none => none
      | some bits => if refused bits then none else some (result bits)
    else some (result defaultMaxWindowBits)) = some options' ↔
      BitsWithin low high value ∧ options' = result (givenBits value) := by
  by_cases hvalue : value = []
  · simp [hvalue, BitsWithin, givenBits, eq_comm]
  · have hlength : value.length ≠ 0 := by
      simpa using hvalue
    rw [if_pos hlength]
    cases hparsed : parseU64 value with
    | none => simp [hvalue, hparsed, BitsWithin]
    | some bits =>
      have hgiven := givenBits_of_parsed hparsed
      by_cases hrange : low ≤ bits ∧ bits ≤ high
      · have haccepted : ¬ refused bits := by
          rw [hrefused, not_not]
          exact hrange
        simp [hvalue, hparsed, BitsWithin, haccepted, hrange, hgiven, eq_comm]
      · have hno := (hrefused bits).2 hrange
        simp [hvalue, hparsed, BitsWithin, hno, hrange]

theorem flagBranch_eq_some {value : Bytes} {options options' : WsDeflateOptions} :
    (if value.length ≠ 0 then none else some options) = some options' ↔
      value = [] ∧ options' = options := by
  by_cases hvalue : value = [] <;> simp [hvalue, eq_comm]

theorem deflateParam_eq_some {options options' : WsDeflateOptions} {param : Bytes} :
    deflateParam p options param = some options' ↔
      ParamAllowed (paramParts p param) ∧ options' = options.withParam (paramParts p param) := by
  obtain ⟨h12, h13, h14, h23, h24, h34⟩ := paramNames_ne
  unfold deflateParam
  dsimp only
  rw [show (p.tstrSplit (p.tstrViewLstrip param) (ascii "=")).getD (p.tstrViewLstrip param, []) =
    paramParts p param from rfl]
  obtain ⟨name, value⟩ := paramParts p param
  simp only [ParamAllowed, WsDeflateOptions.withParam, WsDeflateSingleOption.withParam]
  by_cases hname1 : name = ascii "server_no_context_takeover"
  · subst hname1
    rw [if_pos rfl, flagBranch_eq_some]
    simp [h12, h13, h14]
  by_cases hname2 : name = ascii "server_max_window_bits"
  · subst hname2
    rw [if_neg hname1, if_pos rfl]
    refine (bitsBranch_eq_some (fun bits => bits < minMaxWindowBits ∨ bits > maxMaxWindowBits) 8 15
      (fun bits => { options with server := { options.server with maxWindowBits := bits } })
      ?_).trans ?_
    · intro bits
      simp only [minMaxWindowBits, maxMaxWindowBits]
      omega
    · simp [hname1, h23, h24]
  by_cases hname3 : name = ascii "client_no_context_takeover"
  · subst hname3
    rw [if_neg hname1, if_neg hname2, if_pos rfl, flagBranch_eq_some]
    simp [hname1, hname2, h34]
  by_cases hname4 : name = ascii "client_max_window_bits"
  · subst hname4
    rw [if_neg hname1, if_neg hname2, if_neg hname3, if_pos rfl]
    refine (bitsBranch_eq_some (fun bits => bits > 255) 0 255
      (fun bits => { options with client := { options.client with maxWindowBits := bits } })
      ?_).trans ?_
    · intro bits
      omega
    · simp [hname1, hname2, hname3]
  · simp [hname1, hname2, hname3, hname4]

theorem foldlM_deflateParam {params : List Bytes} : ∀ {options options' : WsDeflateOptions},
    params.foldlM (deflateParam p) options = some options' ↔
      (∀ param ∈ params, ParamAllowed (paramParts p param)) ∧
        options' = (params.map (paramParts p)).foldl WsDeflateOptions.withParam options := by
  induction params with
  | nil =>
    intro options options'
    simp [eq_comm]
  | cons param params ih =>
    intro options options'
    rw [List.foldlM_cons, List.forall_mem_cons, List.map_cons, List.foldl_cons]
    cases hparam : deflateParam p options param with
    | none =>
      have hnot : ¬ ParamAllowed (paramParts p param) := by
        intro hallowed
        have hsome : deflateParam p options param = some _ :=
          deflateParam_eq_some.2 ⟨hallowed, rfl⟩
        rw [hparam] at hsome
        cases hsome
      simp [hnot]
    | some next =>
      obtain ⟨hallowed, rfl⟩ := deflateParam_eq_some.1 hparam
      rw [Option.bind_eq_bind, Option.bind_some, ih]
      simp [hallowed]

/-! ## Offers -/

/-- The name of an offer. -/
def offerName (p : HeadParser Uri) (offer : Bytes) : Bytes :=
  match p.tstrSplit offer (ascii ";") with
  | some (name, _) => name
  | none => offer

/-- The parameters of an offer. -/
def offerParams (p : HeadParser Uri) (offer : Bytes) : List (Bytes × Bytes) :=
  match p.tstrSplit offer (ascii ";") with
  | some (_, params) =>
    if p.tstrViewLstrip params = [] then []
    else (p.tstrSplitPieces (p.tstrViewLstrip params) (ascii ";")).map (paramParts p)
  | none => []

/-- An offer that is taken: `permessage-deflate`, where every parameter is understood. -/
structure OfferAllowed (p : HeadParser Uri) (offer : Bytes) : Prop where
  name : offerName p offer = ascii "permessage-deflate"
  params : ∀ param ∈ offerParams p offer, ParamAllowed param

/-- The options of an offer. -/
def offerOptions (p : HeadParser Uri) (offer : Bytes) : WsDeflateOptions :=
  (offerParams p offer).foldl WsDeflateOptions.withParam defaultDeflateOptions

/-- **The offers that are taken.** -/
theorem parseWsExtensionValue_eq_some {offer : Bytes} {extension : WSExtension} :
    parseWsExtensionValue p offer = some extension ↔
      OfferAllowed p offer ∧ extension = .perMessageDeflate (offerOptions p offer) := by
  have hiff : OfferAllowed p offer ↔ offerName p offer = ascii "permessage-deflate" ∧
      ∀ param ∈ offerParams p offer, ParamAllowed param :=
    ⟨fun h => ⟨h.name, h.params⟩, fun h => ⟨h.1, h.2⟩⟩
  rw [hiff]
  unfold parseWsExtensionValue offerName offerOptions offerParams
  cases hsplit : p.tstrSplit offer (ascii ";") with
  | none =>
    by_cases hname : offer = ascii "permessage-deflate" <;> simp [hname, eq_comm]
  | some parts =>
    obtain ⟨name, rest⟩ := parts
    by_cases hname : name = ascii "permessage-deflate"
    · by_cases hparams : p.tstrViewLstrip rest = []
      · simp [hname, hparams, eq_comm]
      · have hlength : (p.tstrViewLstrip rest).length ≠ 0 := by
          simpa using hparams
        simp only [hname, if_true, if_pos hlength, if_neg hparams, true_and,
          parseWsExtensionPerMessageDeflateParams, Option.map_eq_some_iff, foldlM_deflateParam]
        constructor
        · rintro ⟨options, ⟨hallowed, rfl⟩, rfl⟩
          exact ⟨List.forall_mem_map.2 hallowed, rfl⟩
        · rintro ⟨hallowed, rfl⟩
          exact ⟨_, ⟨List.forall_mem_map.1 hallowed, rfl⟩, rfl⟩
    · simp [hname]

/-! ## The handshake -/

/-- The offers of a request. -/
def offersOf (p : HeadParser Uri) (headerFields : List HttpHeaderField) : List Bytes :=
  (headerFields.filter fun header =>
    eqIgnoreCase header.key (ascii "sec-websocket-extensions")).flatMap
    fun header => p.tstrSplitPieces header.value (ascii ",")

theorem eqIgnoreCase_ne {key name other : Bytes} (h : eqIgnoreCase key name = true)
    (hne : eqIgnoreCase name other = false) : eqIgnoreCase key other = false := by
  rw [eqIgnoreCase, beq_iff_eq] at h
  rw [eqIgnoreCase, h]
  exact hne

/-- A header adds its extensions. -/
theorem handshakeHeader_extensions (hlaw : p.Lawful blank) {state state' : HandshakeState}
    {header : HttpHeaderField} (h : handshakeHeader p state header = .ok state') :
    state'.extensions = state.extensions ++
      (offersOf p [header]).filterMap (parseWsExtensionValue p) := by
  have hother : ∀ {name : Bytes}, eqIgnoreCase name (ascii "sec-websocket-extensions") = false →
      eqIgnoreCase header.key name = true → offersOf p [header] = [] := by
    intro name hne hkey
    simp [offersOf, eqIgnoreCase_ne hkey hne]
  unfold handshakeHeader at h
  simp only [hlaw.eqIgnoreCase] at h
  split_ifs at h with hhost hupgrade _ hconnection _ hkey _ hversion _ hextensions
  all_goals cases h
  · simp [hother (by decide) hhost, HandshakeState.found]
  · simp [hother (by decide) hupgrade, HandshakeState.found]
  · simp [hother (by decide) hconnection, HandshakeState.found]
  · simp [hother (by decide) hkey, HandshakeState.found]
  · simp [hother (by decide) hversion, HandshakeState.found]
  · simp [offersOf, hextensions, parseWsExtensions]
  · simp [offersOf, hextensions]

theorem foldlM_handshakeHeader (hlaw : p.Lawful blank) {headerFields : List HttpHeaderField} :
    ∀ {state state' : HandshakeState},
      headerFields.foldlM (handshakeHeader p) state = .ok state' →
      state'.extensions = state.extensions ++
        (offersOf p headerFields).filterMap (parseWsExtensionValue p) := by
  induction headerFields with
  | nil =>
    intro state state' h
    cases h
    simp [offersOf]
  | cons header headerFields ih =>
    intro state state' h
    rw [List.foldlM_cons] at h
    cases hheader : handshakeHeader p state header with
    | error failure =>
      rw [hheader] at h
      cases h
    | ok next =>
      rw [hheader] at h
      have hfirst := handshakeHeader_extensions hlaw hheader
      have hrest := ih h
      have happend : offersOf p (header :: headerFields) =
          offersOf p [header] ++ offersOf p headerFields := by
        rw [offersOf, ← List.singleton_append, List.filter_append, List.flatMap_append]
        rfl
      rw [hrest, hfirst, happend, List.filterMap_append, List.append_assoc]

theorem areExtensionsSupported_ok {extensions : List WSExtension} {result : Unit}
    (h : areExtensionsSupported extensions = .ok result) :
    extensions = [] ∨ ∃ options, extensions = [.perMessageDeflate options] ∧
      options.client.noContextTakeover = true ∧ options.server.noContextTakeover = true := by
  unfold areExtensionsSupported at h
  split at h
  · exact .inl rfl
  · rename_i options
    split_ifs at h with hclient hserver
    exact .inr ⟨options, rfl, by simpa using hclient, by simpa using hserver⟩
  · cases h

/-- **A handshake that succeeds.** -/
theorem handleWsHandshake_ok (hlaw : p.Lawful blank) {generateKeyAnswer : Bytes → Option Bytes}
    {headerFields : List HttpHeaderField} {handshake : Handshake}
    (h : handleWsHandshake p generateKeyAnswer headerFields = .ok handshake) :
    handshake.extensions = (offersOf p headerFields).filterMap (parseWsExtensionValue p) ∧
      areExtensionsSupported handshake.extensions = .ok () ∧
      ∃ secKey, handshake.additionalHeaders =
        handshakeAnswer generateKeyAnswer secKey handshake.extensions := by
  unfold handleWsHandshake at h
  cases hloop : headerFields.foldlM (handshakeHeader p) ⟨0, none, []⟩ with
  | error failure =>
    rw [hloop] at h
    cases h
  | ok state =>
    have hextensions := foldlM_handshakeHeader hlaw hloop
    rw [List.nil_append] at hextensions
    simp only [hloop, bind, Except.bind] at h
    split_ifs at h
    cases hsupported : areExtensionsSupported state.extensions with
    | error failure =>
      rw [hsupported] at h
      cases h
    | ok result =>
      rw [hsupported] at h
      cases h
      exact ⟨hextensions, hsupported, _, rfl⟩

/-! ## The answer is read back -/

theorem parseU64_decimalText {n : ℕ} (h : n < 2 ^ 64) : parseU64 (decimalText n) = some n := by
  have hvalue := decimalValue_decimalText n
  rw [parseU64_eq_some]
  refine ⟨decimalText_decimal n, neverSmaller_of_lt (by omega), ?_⟩
  rw [residue, hvalue, Nat.mod_eq_of_lt h]

/-- The first byte is no blank. -/
def StartsVisible (text : Bytes) : Prop := ∃ c rest, text = c :: rest ∧ 0x20 < c

theorem StartsVisible.append {text : Bytes} (h : StartsVisible text) (rest : Bytes) :
    StartsVisible (text ++ rest) := by
  obtain ⟨c, rest', rfl, hc⟩ := h
  exact ⟨c, rest' ++ rest, rfl, hc⟩

theorem StartsVisible.lstrip (hlaw : p.Lawful blank) {text : Bytes} (h : StartsVisible text) :
    p.tstrViewLstrip text = text := by
  obtain ⟨c, rest, rfl, hc⟩ := h
  have hvisible : ¬ blank c := by
    intro hblank
    exact absurd (hlaw.control c hblank) (UInt8.not_le.2 hc)
  rw [hlaw.lstrip, List.dropWhile_cons_of_neg (by simpa using hvisible)]

/-- A parameter with a value. -/
theorem paramParts_value (hlaw : p.Lawful blank) {name : Bytes} (value : Bytes)
    (h : StartsVisible name) (hname : 0x3D ∉ name) :
    paramParts p (name ++ 0x3D :: value) = (name, value) := by
  have hsplit : p.tstrSplit (name ++ 0x3D :: value) (ascii "=") = some (name, value) := by
    rw [show ascii "=" = [0x3D] from rfl, hlaw.split, splitFirst_append_cons hname]
  rw [paramParts, (h.append _).lstrip hlaw, hsplit, Option.getD_some]

/-- A parameter without a value. -/
theorem paramParts_flag (hlaw : p.Lawful blank) {name : Bytes} (h : StartsVisible name)
    (hname : 0x3D ∉ name) : paramParts p name = (name, []) := by
  have hsplit : p.tstrSplit name (ascii "=") = none := by
    rw [show ascii "=" = [0x3D] from rfl, hlaw.split, splitFirst_eq_none_of_not_mem hname]
  rw [paramParts, h.lstrip hlaw, hsplit, Option.getD_none]

/-- The parameters of the answer. -/
def answerParams (options : WsDeflateOptions) : List Bytes :=
  [ascii "server_max_window_bits" ++ 0x3D :: decimalText options.server.maxWindowBits,
    ascii "client_max_window_bits" ++ 0x3D :: decimalText options.client.maxWindowBits,
    ascii "server_no_context_takeover", ascii "client_no_context_takeover"]

theorem appendWsExtensionAsString_eq {options : WsDeflateOptions}
    (hclient : options.client.noContextTakeover = true)
    (hserver : options.server.noContextTakeover = true) :
    appendWsExtensionAsString (.perMessageDeflate options) =
      ascii "permessage-deflate" ++ 0x3B :: [0x3B].intercalate (answerParams options) := by
  simp only [appendWsExtensionAsString, hclient, hserver, if_true, answerParams, List.intercalate]
  simp [ascii]

/-- No parameter has a separator. -/
theorem answerParams_clean {c : UInt8} (h : c = 0x2C ∨ c = 0x3B) (options : WsDeflateOptions) :
    ∀ param ∈ answerParams options, c ∉ param := by
  have hdigit : ¬ IsDigit c := by
    rcases h with rfl | rfl <;> decide
  have hequals : c ≠ 0x3D := by
    rcases h with rfl | rfl <;> decide
  have hnames : c ∉ ascii "server_max_window_bits" ∧ c ∉ ascii "client_max_window_bits" ∧
      c ∉ ascii "server_no_context_takeover" ∧ c ∉ ascii "client_no_context_takeover" := by
    rcases h with rfl | rfl <;> decide
  obtain ⟨hserverBits, hclientBits, hserver, hclient⟩ := hnames
  rw [answerParams, List.forall_mem_cons, List.forall_mem_cons, List.forall_mem_cons,
    List.forall_mem_cons]
  simp only [List.mem_append, List.mem_cons, not_or]
  exact ⟨⟨hserverBits, hequals, decimalText_notMem hdigit _⟩,
    ⟨hclientBits, hequals, decimalText_notMem hdigit _⟩, hserver, hclient, by simp⟩

theorem paramParts_answerParams (hlaw : p.Lawful blank) (options : WsDeflateOptions) :
    (answerParams options).map (paramParts p) =
      [(ascii "server_max_window_bits", decimalText options.server.maxWindowBits),
        (ascii "client_max_window_bits", decimalText options.client.maxWindowBits),
        (ascii "server_no_context_takeover", []), (ascii "client_no_context_takeover", [])] := by
  have hserverBits : StartsVisible (ascii "server_max_window_bits") := ⟨_, _, rfl, by decide⟩
  have hclientBits : StartsVisible (ascii "client_max_window_bits") := ⟨_, _, rfl, by decide⟩
  have hserver : StartsVisible (ascii "server_no_context_takeover") := ⟨_, _, rfl, by decide⟩
  have hclient : StartsVisible (ascii "client_no_context_takeover") := ⟨_, _, rfl, by decide⟩
  simp only [answerParams, List.map_cons, List.map_nil]
  rw [paramParts_value hlaw _ hserverBits (by decide),
    paramParts_value hlaw _ hclientBits (by decide),
    paramParts_flag hlaw hserver (by decide), paramParts_flag hlaw hclient (by decide)]

theorem answerParams_visible (options : WsDeflateOptions) :
    StartsVisible ([0x3B].intercalate (answerParams options)) := by
  have hfirst : StartsVisible (ascii "server_max_window_bits") := ⟨_, _, rfl, by decide⟩
  simp only [answerParams, List.intercalate_cons_cons, List.append_assoc]
  exact hfirst.append _

/-- The parameters of the printed extension. -/
theorem offerParams_printed (hlaw : p.Lawful blank) (options : WsDeflateOptions) :
    offerName p (ascii "permessage-deflate" ++ 0x3B :: [0x3B].intercalate (answerParams options)) =
        ascii "permessage-deflate" ∧
      offerParams p
          (ascii "permessage-deflate" ++ 0x3B :: [0x3B].intercalate (answerParams options)) =
        (answerParams options).map (paramParts p) := by
  have hsplit : p.tstrSplit
      (ascii "permessage-deflate" ++ 0x3B :: [0x3B].intercalate (answerParams options))
      (ascii ";") =
        some (ascii "permessage-deflate", [0x3B].intercalate (answerParams options)) := by
    rw [show ascii ";" = [0x3B] from rfl, hlaw.split, splitFirst_append_cons (by decide)]
  have hvisible := answerParams_visible options
  have hstrip := hvisible.lstrip hlaw
  have hne : [0x3B].intercalate (answerParams options) ≠ [] := by
    obtain ⟨c, rest, htext, -⟩ := hvisible
    rw [htext]
    exact List.cons_ne_nil c rest
  have hpieces : p.tstrSplitPieces ([0x3B].intercalate (answerParams options)) (ascii ";") =
      answerParams options := by
    rw [show ascii ";" = [0x3B] from rfl, hlaw.splitPieces hne]
    rw [List.splitOn_intercalate _ (answerParams_clean (.inr rfl) options) (by simp [answerParams])]
  refine ⟨?_, ?_⟩
  · rw [offerName, hsplit]
  · simp only [offerParams, hsplit]
    rw [hstrip, if_neg hne, hpieces]

/-- The printed extension has no comma. -/
theorem notMem_printed (options : WsDeflateOptions) :
    0x2C ∉ ascii "permessage-deflate" ++ 0x3B :: [0x3B].intercalate (answerParams options) := by
  have hname : 0x2C ∉ ascii "permessage-deflate" := by decide
  have hclean := answerParams_clean (.inl rfl) options
  rw [answerParams, List.forall_mem_cons, List.forall_mem_cons, List.forall_mem_cons,
    List.forall_mem_cons] at hclean
  obtain ⟨hserverBits, hclientBits, hserver, hclient, -⟩ := hclean
  rw [answerParams, List.intercalate_cons_cons, List.intercalate_cons_cons,
    List.intercalate_cons_cons, List.intercalate_singleton]
  simp only [List.mem_append, List.mem_cons, List.not_mem_nil, or_false, not_or] at *
  exact ⟨hname, by decide, ⟨hserverBits, by decide⟩, ⟨hclientBits, by decide⟩,
    ⟨hserver, by decide⟩, hclient⟩

/-- **The extension of the answer is read back.** -/
theorem parseWsExtensions_printed (hlaw : p.Lawful blank) {options : WsDeflateOptions}
    (hclient : options.client.noContextTakeover = true)
    (hserver : options.server.noContextTakeover = true)
    (hclientBits : options.client.maxWindowBits ≤ 255)
    (hserverBits : 8 ≤ options.server.maxWindowBits ∧ options.server.maxWindowBits ≤ 15) :
    parseWsExtensions p (getAcceptedWsExtensionsAsString [.perMessageDeflate options]) =
      [.perMessageDeflate options] := by
  have htext : getAcceptedWsExtensionsAsString [.perMessageDeflate options] =
      ascii "permessage-deflate" ++ 0x3B :: [0x3B].intercalate (answerParams options) := by
    rw [← appendWsExtensionAsString_eq hclient hserver]
    simp [getAcceptedWsExtensionsAsString, List.intercalate]
  obtain ⟨hname, hparams⟩ := offerParams_printed hlaw options
  rw [paramParts_answerParams hlaw] at hparams
  have hparsedClient := parseU64_decimalText (show options.client.maxWindowBits < 2 ^ 64 by omega)
  have hparsedServer := parseU64_decimalText (show options.server.maxWindowBits < 2 ^ 64 by omega)
  have hvalue : parseWsExtensionValue p
      (ascii "permessage-deflate" ++ 0x3B :: [0x3B].intercalate (answerParams options)) =
        some (.perMessageDeflate options) := by
    rw [parseWsExtensionValue_eq_some]
    refine ⟨⟨hname, ?_⟩, ?_⟩
    · rw [hparams]
      simp only [List.forall_mem_cons]
      refine ⟨.inr (.inl ⟨rfl, .inr ⟨_, hparsedServer, hserverBits⟩⟩),
        .inr (.inr (.inr ⟨rfl, .inr ⟨_, hparsedClient, by omega, hclientBits⟩⟩)),
        .inl ⟨rfl, rfl⟩, .inr (.inr (.inl ⟨rfl, rfl⟩)), by simp⟩
    · rw [offerOptions, hparams]
      have hgivenServer := givenBits_of_parsed hparsedServer
      have hgivenClient := givenBits_of_parsed hparsedClient
      obtain ⟨h12, h13, h14, h23, h24, h34⟩ := paramNames_ne
      obtain ⟨⟨clientTakeover, clientBits⟩, ⟨serverTakeover, serverBits⟩⟩ := options
      simp only at hclient hserver hgivenServer hgivenClient
      simp [WsDeflateOptions.withParam, WsDeflateSingleOption.withParam, hgivenServer, hgivenClient,
        hclient, hserver, h12, h13, h14, h23, h24, h34, Ne.symm h12, Ne.symm h13, Ne.symm h14,
        Ne.symm h23, Ne.symm h24, Ne.symm h34]
  have hpieces : p.tstrSplitPieces
      (ascii "permessage-deflate" ++ 0x3B :: [0x3B].intercalate (answerParams options))
        (ascii ",") =
        [ascii "permessage-deflate" ++ 0x3B :: [0x3B].intercalate (answerParams options)] := by
    have hclean := notMem_printed options
    rw [show ascii "," = [0x2C] from rfl, hlaw.splitPieces (by simp),
      List.splitOn_eq_singleton hclean]
  rw [htext, parseWsExtensions, hpieces]
  simp [hvalue]

/-! ## What is agreed on -/

/-- The options keep no context, have windows that the compressors know, and let every message go to
zlib. -/
structure DeflateWorks (streams : ZlibStreams) (options : WsDeflateOptions) : Prop where
  client : options.client.noContextTakeover = true
  server : options.server.noContextTakeover = true
  clientBits : 8 ≤ options.client.maxWindowBits ∧ options.client.maxWindowBits ≤ 15
  serverBits : 8 ≤ options.server.maxWindowBits ∧ options.server.maxWindowBits ≤ 15
  decompresses : ∃ inflate, streams.inflateInit2 (-options.client.maxWindowBits) = some inflate ∧
    ∀ message result, inflate (message.buffer ++ wsTrailerData) = some result →
      decompressWsMessage streams.zlib options message = .ok { message with buffer := result }
  compresses : ∃ deflate, streams.deflateInit2 (-options.server.maxWindowBits) = some deflate ∧
    ∀ message, (deflate message.buffer).data ≠ none →
      compressWsMessage streams.zlib options message =
        .ok { message with buffer := deflate message.buffer }

/-- The extensions that headers name. -/
def extensionsOf (p : HeadParser Uri) (headerFields : List HttpHeaderField) : List WSExtension :=
  (headerFields.filter fun header =>
    eqIgnoreCase header.key (ascii "sec-websocket-extensions")).flatMap
    fun header => parseWsExtensions p header.value

/-- A handshake agrees on at most one extension, which works, and the answer says which. -/
structure NegotiatedWell (p : HeadParser Uri) (streams : ZlibStreams) (handshake : Handshake) :
    Prop where
  one : handshake.extensions.length ≤ 1
  works : ∀ options, WSExtension.perMessageDeflate options ∈ handshake.extensions →
    DeflateWorks streams options
  answered : extensionsOf p handshake.additionalHeaders = handshake.extensions

/-- The bits that the last parameter of a name asks for. -/
def askedBits (bitsName : Bytes) (params : List (Bytes × Bytes)) : ℕ :=
  params.foldl (fun bits param => if param.1 = bitsName then givenBits param.2 else bits)
    defaultMaxWindowBits

/-- The windows of an offer: the one of the client is in range, and zlib has both. -/
structure WindowsKnown (p : HeadParser Uri) (streams : ZlibStreams) (offer : Bytes) : Prop where
  clientBits : 8 ≤ askedBits (ascii "client_max_window_bits") (offerParams p offer) ∧
    askedBits (ascii "client_max_window_bits") (offerParams p offer) ≤ 15
  inflate : streams.inflateInit2
    (-askedBits (ascii "client_max_window_bits") (offerParams p offer)) ≠ none
  deflate : streams.deflateInit2
    (-askedBits (ascii "server_max_window_bits") (offerParams p offer)) ≠ none

theorem foldl_withParam (params : List (Bytes × Bytes)) : ∀ options : WsDeflateOptions,
    (params.foldl WsDeflateOptions.withParam options).client.maxWindowBits =
        params.foldl (fun bits param =>
          if param.1 = ascii "client_max_window_bits" then givenBits param.2 else bits)
          options.client.maxWindowBits ∧
      (params.foldl WsDeflateOptions.withParam options).server.maxWindowBits =
        params.foldl (fun bits param =>
          if param.1 = ascii "server_max_window_bits" then givenBits param.2 else bits)
          options.server.maxWindowBits := by
  induction params with
  | nil =>
    intro options
    exact ⟨rfl, rfl⟩
  | cons param params ih =>
    intro options
    exact ih (options.withParam param)

theorem offerOptions_bits (offer : Bytes) :
    (offerOptions p offer).client.maxWindowBits =
        askedBits (ascii "client_max_window_bits") (offerParams p offer) ∧
      (offerOptions p offer).server.maxWindowBits =
        askedBits (ascii "server_max_window_bits") (offerParams p offer) :=
  foldl_withParam (offerParams p offer) defaultDeflateOptions

theorem BitsWithin.givenBits {low high : ℕ} {value : Bytes} (h : BitsWithin low high value)
    (hdefault : low ≤ 15 ∧ 15 ≤ high) : low ≤ givenBits value ∧ givenBits value ≤ high := by
  rcases h with rfl | ⟨bits, hparsed, hrange⟩
  · exact hdefault
  · rw [givenBits_of_parsed hparsed]
    exact hrange

theorem askedBits_within (low high : ℕ) {bitsName : Bytes} {params : List (Bytes × Bytes)}
    (hdefault : low ≤ 15 ∧ 15 ≤ high)
    (h : ∀ param ∈ params, param.1 = bitsName → BitsWithin low high param.2) :
    low ≤ askedBits bitsName params ∧ askedBits bitsName params ≤ high := by
  have hfold : ∀ bits, low ≤ bits ∧ bits ≤ high →
      low ≤ params.foldl (fun bits param =>
          if param.1 = bitsName then givenBits param.2 else bits) bits ∧
        params.foldl (fun bits param =>
          if param.1 = bitsName then givenBits param.2 else bits) bits ≤ high := by
    induction params with
    | nil =>
      intro bits hbits
      exact hbits
    | cons param params ih =>
      intro bits hbits
      rw [List.forall_mem_cons] at h
      apply ih h.2
      dsimp only
      split_ifs with hname
      · exact (h.1 hname).givenBits hdefault
      · exact hbits
  exact hfold _ hdefault

theorem ParamAllowed.serverBits {param : Bytes × Bytes} (h : ParamAllowed param)
    (hname : param.1 = ascii "server_max_window_bits") : BitsWithin 8 15 param.2 := by
  obtain ⟨h12, -, -, h23, h24, -⟩ := paramNames_ne
  rw [ParamAllowed, hname] at h
  simpa [Ne.symm h12, h23, h24] using h

theorem ParamAllowed.clientBits {param : Bytes × Bytes} (h : ParamAllowed param)
    (hname : param.1 = ascii "client_max_window_bits") : BitsWithin 0 255 param.2 := by
  obtain ⟨-, -, h14, -, h24, h34⟩ := paramNames_ne
  rw [ParamAllowed, hname] at h
  simpa [Ne.symm h14, Ne.symm h24, Ne.symm h34] using h

/-- The window of the server is in range, the one of the client has a byte. -/
theorem OfferAllowed.bits {offer : Bytes} (h : OfferAllowed p offer) :
    (8 ≤ (offerOptions p offer).server.maxWindowBits ∧
        (offerOptions p offer).server.maxWindowBits ≤ 15) ∧
      (offerOptions p offer).client.maxWindowBits ≤ 255 := by
  obtain ⟨hclient, hserver⟩ := offerOptions_bits (p := p) offer
  rw [hclient, hserver]
  have hserverBits := askedBits_within 8 15 (by omega)
    fun param hparam hname => (h.params param hparam).serverBits hname
  have hclientBits := askedBits_within 0 255 (by omega)
    fun param hparam hname => (h.params param hparam).clientBits hname
  exact ⟨hserverBits, hclientBits.2⟩

/-- With known windows, all messages go to zlib. -/
theorem deflateWorks_iff {streams : ZlibStreams} {options : WsDeflateOptions}
    (hclient : options.client.noContextTakeover = true)
    (hserver : options.server.noContextTakeover = true)
    (hserverBits : 8 ≤ options.server.maxWindowBits ∧ options.server.maxWindowBits ≤ 15) :
    DeflateWorks streams options ↔
      (8 ≤ options.client.maxWindowBits ∧ options.client.maxWindowBits ≤ 15) ∧
        streams.inflateInit2 (-options.client.maxWindowBits) ≠ none ∧
        streams.deflateInit2 (-options.server.maxWindowBits) ≠ none := by
  constructor
  · intro h
    obtain ⟨inflate, hinflate, -⟩ := h.decompresses
    obtain ⟨deflate, hdeflate, -⟩ := h.compresses
    exact ⟨h.clientBits, by simp [hinflate], by simp [hdeflate]⟩
  · rintro ⟨hclientBits, hinflate, hdeflate⟩
    obtain ⟨inflate, hinflate⟩ := Option.ne_none_iff_exists'.1 hinflate
    obtain ⟨deflate, hdeflate⟩ := Option.ne_none_iff_exists'.1 hdeflate
    have hclientRange : ¬ (options.client.maxWindowBits < zMinWindowBits ∨
        options.client.maxWindowBits > zMaxWindowBits) := by
      simp only [zMinWindowBits, zMaxWindowBits]
      omega
    have hserverRange : ¬ (options.server.maxWindowBits < zMinWindowBits ∨
        options.server.maxWindowBits > zMaxWindowBits) := by
      simp only [zMinWindowBits, zMaxWindowBits]
      omega
    refine ⟨hclient, hserver, hclientBits, hserverBits, ⟨inflate, hinflate, ?_⟩,
      ⟨deflate, hdeflate, ?_⟩⟩
    · intro message result hresult
      simp [decompressWsMessage, hclient, ZlibStreams.zlib, decompressBufferWithZlibForWs,
        hclientRange, hinflate, hresult]
    · intro message hresult
      have hsome : (deflate message.buffer).data.isNone = false := by
        cases hdata : (deflate message.buffer).data with
        | none => exact absurd hdata hresult
        | some data => rfl
      simp [compressWsMessage, hserver, ZlibStreams.zlib, compressBufferWithZlibForWs,
        hserverRange, hdeflate, hsome]

/-- The extensions of the answer are the ones that were printed. -/
theorem extensionsOf_handshakeAnswer {generateKeyAnswer : Bytes → Option Bytes} {secKey : Bytes}
    (extensions : List WSExtension) :
    extensionsOf p (handshakeAnswer generateKeyAnswer secKey extensions) =
      if extensions.isEmpty then []
      else parseWsExtensions p (getAcceptedWsExtensionsAsString extensions) := by
  have hupgrade : eqIgnoreCase (ascii "upgrade") (ascii "sec-websocket-extensions") = false := by
    decide
  have hconnection : eqIgnoreCase (ascii "connection") (ascii "sec-websocket-extensions") =
      false := by
    decide
  have haccept : eqIgnoreCase (ascii "sec-websocket-accept") (ascii "sec-websocket-extensions") =
      false := by
    decide
  have hsame : eqIgnoreCase (ascii "sec-websocket-extensions") (ascii "sec-websocket-extensions") =
      true := by
    decide
  unfold handshakeAnswer extensionsOf
  cases generateKeyAnswer secKey <;> cases extensions <;>
    simp [hupgrade, hconnection, haccept, hsame]

/-- **When a handshake agrees on windows that work**: the offers that are taken ask for known
windows. -/
theorem negotiation_iff (hlaw : p.Lawful blank) (streams : ZlibStreams)
    {generateKeyAnswer : Bytes → Option Bytes} {headerFields : List HttpHeaderField}
    {handshake : Handshake}
    (h : handleWsHandshake p generateKeyAnswer headerFields = .ok handshake) :
    NegotiatedWell p streams handshake ↔
      ∀ offer ∈ offersOf p headerFields, OfferAllowed p offer → WindowsKnown p streams offer := by
  obtain ⟨hextensions, hsupported, secKey, hanswer⟩ := handleWsHandshake_ok hlaw h
  have htaken : ∀ options, WSExtension.perMessageDeflate options ∈ handshake.extensions ↔
      ∃ offer ∈ offersOf p headerFields, OfferAllowed p offer ∧ options = offerOptions p offer := by
    intro options
    rw [hextensions, List.mem_filterMap]
    simp only [parseWsExtensionValue_eq_some, WSExtension.perMessageDeflate.injEq]
  have hknown : ∀ options, WSExtension.perMessageDeflate options ∈ handshake.extensions →
      (DeflateWorks streams options ↔
        (8 ≤ options.client.maxWindowBits ∧ options.client.maxWindowBits ≤ 15) ∧
          streams.inflateInit2 (-options.client.maxWindowBits) ≠ none ∧
          streams.deflateInit2 (-options.server.maxWindowBits) ≠ none) := by
    intro options hmem
    obtain ⟨offer, -, hallowed, rfl⟩ := (htaken options).1 hmem
    rcases areExtensionsSupported_ok hsupported with hnone | ⟨only, honly, hclient, hserver⟩
    · rw [hnone] at hmem
      cases hmem
    · rw [honly, List.mem_singleton] at hmem
      cases hmem
      exact deflateWorks_iff hclient hserver hallowed.bits.1
  constructor
  · intro hwell offer hoffer hallowed
    have hmem := (htaken _).2 ⟨offer, hoffer, hallowed, rfl⟩
    obtain ⟨hbits, hinflate, hdeflate⟩ := (hknown _ hmem).1 (hwell.works _ hmem)
    obtain ⟨hclientBits, hserverBits⟩ := offerOptions_bits (p := p) offer
    rw [hclientBits] at hbits hinflate
    rw [hserverBits] at hdeflate
    exact ⟨hbits, hinflate, hdeflate⟩
  · intro hwindows
    have hworks : ∀ options, WSExtension.perMessageDeflate options ∈ handshake.extensions →
        DeflateWorks streams options := by
      intro options hmem
      obtain ⟨offer, hoffer, hallowed, rfl⟩ := (htaken options).1 hmem
      obtain ⟨hbits, hinflate, hdeflate⟩ := hwindows offer hoffer hallowed
      obtain ⟨hclientBits, hserverBits⟩ := offerOptions_bits (p := p) offer
      rw [← hclientBits] at hbits hinflate
      rw [← hserverBits] at hdeflate
      exact (hknown _ hmem).2 ⟨hbits, hinflate, hdeflate⟩
    rcases areExtensionsSupported_ok hsupported with hnone | ⟨options, honly, hclient, hserver⟩
    · refine ⟨by simp [hnone], hworks, ?_⟩
      rw [hanswer, extensionsOf_handshakeAnswer, hnone]
      rfl
    · have hmem : WSExtension.perMessageDeflate options ∈ handshake.extensions := by
        rw [honly]
        exact List.mem_singleton_self _
      have hone := hworks options hmem
      refine ⟨by simp [honly], hworks, ?_⟩
      rw [hanswer, extensionsOf_handshakeAnswer, honly]
      have hbits := hone.clientBits.2
      exact parseWsExtensions_printed hlaw hclient hserver (by omega) hone.serverBits

/-- The string functions of `plain`, with base64. -/
def base64Parser : HeadParser Bytes :=
  { HeadParser.plain with base64DecodeBuffer := Base64.decode }

theorem base64Parser_lawful : base64Parser.Lawful IsSpace where
  joined := HeadParser.plain_lawful.joined
  pieces := HeadParser.plain_lawful.pieces
  split := HeadParser.plain_lawful.split
  lstrip := HeadParser.plain_lawful.lstrip
  space := HeadParser.plain_lawful.space
  control := HeadParser.plain_lawful.control
  eqIgnoreCase := HeadParser.plain_lawful.eqIgnoreCase

/-- The headers of a request that offers extensions. -/
def offeringHeaders (offers : String) : List HttpHeaderField :=
  [⟨ascii "Host", ascii "example"⟩, ⟨ascii "Upgrade", ascii "websocket"⟩,
    ⟨ascii "Connection", ascii "keep-alive, Upgrade"⟩,
    ⟨ascii "Sec-WebSocket-Key", ascii "dGhlIHNhbXBsZSBub25jZQ=="⟩,
    ⟨ascii "Sec-WebSocket-Version", ascii "13"⟩,
    ⟨ascii "Sec-WebSocket-Extensions", ascii offers⟩]

/-- Streams for raw windows of 9 to 15 bits, that copy. -/
def copyStreams : ZlibStreams where
  deflateInit2 windowBits := if -15 ≤ windowBits ∧ windowBits ≤ -9 then some id else none
  inflateInit2 windowBits := if -15 ≤ windowBits ∧ windowBits ≤ -8 then some some else none

/-- What is agreed on about an offer of a window. -/
def offeredHandshake (clientBits : ℕ) : Handshake where
  extensions := [.perMessageDeflate ⟨⟨true, clientBits⟩, ⟨true, 15⟩⟩]
  additionalHeaders := handshakeAnswer (fun _ => none) []
    [.perMessageDeflate ⟨⟨true, clientBits⟩, ⟨true, 15⟩⟩]

theorem negotiation_ten :
    handleWsHandshake base64Parser (fun _ => none) (offeringHeaders
        "permessage-deflate; client_no_context_takeover; client_max_window_bits=10") =
      .ok (offeredHandshake 10) ∧
    (NegotiatedWell base64Parser copyStreams (offeredHandshake 10) ↔
      ∀ offer ∈ offersOf base64Parser (offeringHeaders
          "permessage-deflate; client_no_context_takeover; client_max_window_bits=10"),
        OfferAllowed base64Parser offer → WindowsKnown base64Parser copyStreams offer) := by
  have hok : handleWsHandshake base64Parser (fun _ => none) (offeringHeaders
      "permessage-deflate; client_no_context_takeover; client_max_window_bits=10") =
    .ok (offeredHandshake 10) := by
    decide +kernel
  exact ⟨hok, negotiation_iff base64Parser_lawful copyStreams hok⟩

/-- A window of 200 bits is agreed on; no message of the client can be read. -/
theorem hugeWindow_accepted :
    handleWsHandshake base64Parser (fun _ => none) (offeringHeaders
        "permessage-deflate; client_no_context_takeover; client_max_window_bits=200") =
      .ok (offeredHandshake 200) ∧
    ¬ NegotiatedWell base64Parser copyStreams (offeredHandshake 200) ∧
    ∀ message, decompressWsMessage copyStreams.zlib ⟨⟨true, 200⟩, ⟨true, 15⟩⟩ message =
      .error "decompress error" := by
  refine ⟨by decide +kernel, ?_, ?_⟩
  · intro hwell
    have hworks := hwell.works ⟨⟨true, 200⟩, ⟨true, 15⟩⟩ (by simp [offeredHandshake])
    have hbits := hworks.clientBits.2
    simp at hbits
  · intro message
    simp [decompressWsMessage, ZlibStreams.zlib, decompressBufferWithZlibForWs, zMaxWindowBits]

end SimpleServer.Ws
