import SimpleServer.Proof.HeaderStep

/-!
# The order in which header blocks are decoded

* `headerOrder_of_along`: header blocks are decoded in wire order in all runs in which no
  block is completed while another stream waits, and no complete block is refused or dropped.
* `interleavedUpload_wrongList`: a request whose header block uses an entry that another
  stream's block, complete but not decoded yet, should have replaced.
-/

namespace SimpleServer.Http2

open Lib Hpack

variable {Authority UrlPath : Type} {uri : UriParser Authority UrlPath}

theorem peerLists_append {state : HpackDecompressState} {blocks : List (ℕ × Bytes)} {i : ℕ}
    {b : Bytes} {lists : List (ℕ × List HttpHeaderField)}
    (h : peerLists state (blocks ++ [(i, b)]) = some lists) :
    ∃ lists' fields, lists = lists' ++ [(i, fields)] ∧ lists'.map Prod.fst = blocks.map Prod.fst ∧
      (http2HpackDecompressData (decodeRun state blocks) b).2 = .ok fields := by
  induction blocks generalizing state lists with
  | nil =>
    simp only [List.nil_append, peerLists] at h
    split at h
    · cases h
    · rename_i state' fields heq
      simp only [Option.map_some, Option.some.injEq] at h
      exact ⟨[], fields, h.symm, rfl, by rw [decodeRun, List.foldl_nil, heq]⟩
  | cons p blocks ih =>
    obtain ⟨j, c⟩ := p
    simp only [List.cons_append, peerLists] at h
    split at h
    · cases h
    · rename_i state' fields heq
      obtain ⟨rest, hrest, rfl⟩ := Option.map_eq_some_iff.1 h
      obtain ⟨lists', fields', rfl, hkeys, hdec⟩ := ih hrest
      refine ⟨(j, fields) :: lists', fields', rfl, by simp [hkeys], ?_⟩
      rw [decodeRun, List.foldl_cons, heq]
      exact hdec

/-- An accepted request is built from the header list that its block is decoded to. -/
theorem requestStep_ok {context : HTTP2Context} {f : Http2Frame} {i : ℕ} {b : Bytes}
    {request : HttpRequest Authority UrlPath}
    (hres : (processHttp2Frame context f).result = .newFinishedRequest i)
    (hdec : decodedAt context f = some (i, b))
    (hok : (requestStep uri context f).2 = some (.ok request)) :
    ∃ fields, (http2HpackDecompressData
        (processHttp2Frame context f).context.state.hpackState.decompressState b).2 = .ok fields ∧
      headOfFields uri fields i = .ok request.head := by
  unfold decodedAt at hdec
  rw [hres] at hdec
  obtain ⟨s, hs, hb⟩ := Option.map_eq_some_iff.1 hdec
  obtain rfl : http2ConcatDataBlocks s.headers.headerBlocks = b := congrArg Prod.snd hb
  unfold requestStep at hok
  simp only [hres, hs, Option.some.injEq] at hok
  unfold getHttp2RequestFromFinishedStream parseHttp2Headers at hok
  generalize hd : http2HpackDecompressData
    (processHttp2Frame context f).context.state.hpackState.decompressState
    (http2ConcatDataBlocks s.headers.headerBlocks) = d at hok ⊢
  obtain ⟨state, e | fields⟩ := d
  · cases e <;> cases hok
  · dsimp only at hok
    refine ⟨fields, rfl, ?_⟩
    cases hhead : headOfFields uri fields i with
    | error e => rw [hhead] at hok; cases e <;> cases hok
    | ok head => rw [hhead] at hok; cases hok; rfl

/-- **Header blocks are decoded in wire order in every run in which no block is completed while
another stream waits for the rest of its request, and no block is refused or dropped.** -/
theorem headerOrder_of_along (uri : UriParser Authority UrlPath) (frames : List Http2Frame)
    (hwire : Along (observe uri) WireAllowed observedStart frames)
    (hkept : Along (observe uri) BlocksKept observedStart frames) : HeaderOrder uri frames := by
  have hboth : Along (observe uri) (fun o f => WireAllowed o f ∧ BlocksKept o f) observedStart
      frames := by
    rw [along_iff] at hwire hkept ⊢
    intro pre f post h
    exact ⟨hwire pre f post h, hkept pre f post h⟩
  rintro pre f post i lists rfl hres hlists
  obtain ⟨hpre, hf, -⟩ := along_append.1 hboth
  have hinv : OrderInv (runFrom (observe uri) observedStart pre) :=
    Along.invariant (I := OrderInv) (fun o f ho hc => (orderInv_step uri ho hc.1 hc.2).inv)
      orderInv_start hpre
  have hstep := orderInv_step uri hinv hf.1 hf.2
  obtain ⟨hall, b, hdec⟩ := hstep.finished i hres
  rw [runFrom_append, runFrom_cons, runFrom_nil] at hlists ⊢
  refine ⟨hall, ?_⟩
  intro request hok
  obtain ⟨fields, hfields, hhead⟩ := requestStep_ok hres hdec hok
  refine ⟨fields, ?_, hhead⟩
  -- the block of this request is the last complete one
  have hdecoded : (observe uri (runFrom (observe uri) observedStart pre) f).wire.completed =
      (runFrom (observe uri) observedStart pre).decoded ++ [(i, b)] := by
    rw [← hall, observe]
    dsimp only
    rw [hdec]
    rfl
  have hnodup := hstep.inv.once
  rw [hdecoded] at hlists hnodup
  obtain ⟨lists', fields', rfl, hkeys, hpeer⟩ := peerLists_append hlists
  -- the frame itself leaves the table alone: SETTINGS finish no request
  have htable : (processHttp2Frame (runFrom (observe uri) observedStart pre).context
      f).context.state.hpackState =
        (runFrom (observe uri) observedStart pre).context.state.hpackState := by
    refine processHttp2Frame_hpackState _ ?_
    rintro s rfl
    rw [(processHttp2Frame_settings _ s).2] at hres
    cases hres
  rw [htable, hinv.table, hpeer] at hfields
  obtain rfl : fields' = fields := Except.ok.inj hfields
  -- a stream has one block at most, so the lookup finds the last list
  have hnot : i ∉ lists'.map Prod.fst := by
    rw [hkeys]
    rw [List.map_append, List.nodup_append] at hnodup
    intro hmem
    exact hnodup.2.2 i hmem i (by simp) rfl
  rw [List.lookup_append, List.lookup_eq_none_iff.2, Option.none_or]
  · simp
  · intro p hp
    have : p.1 ≠ i := fun h => hnot (h ▸ List.mem_map_of_mem hp)
    simpa using this.symm

/-- A request with a body adds `x: a` to the table, and then one without a body refers to it. -/
def uploadThenRequest : List Http2Frame :=
  [.headers ⟨none, [0x82, 0x86, 0x84, 0x40, 0x01, 0x78, 0x01, 0x61], 1, false, true⟩,
    .data ⟨[0x61], true, 1⟩, .headers ⟨none, [0x82, 0x86, 0x84, 0xBE], 3, true, true⟩]

theorem uploadThenRequest_ordered : HeaderOrder UriParser.plain uploadThenRequest := by
  refine headerOrder_of_along UriParser.plain uploadThenRequest (by decide)
    ⟨⟨.inl rfl, fun _ => nofun⟩, trivial, ⟨.inl (by decide), fun _ i s hs hw => ?_⟩, trivial⟩
  by_cases hi : i = 1
  · subst hi
    have hend : s.endStream = true := by
      rw [← Option.some.injEq, ← Option.map_some, ← hs]
      decide
    rw [hw.2] at hend
    cases hend
  · rw [observe_others (local_processDataFrame _ ⟨[0x61], true, 1⟩) rfl i hi,
      observe_others (local_processHeadersFrame _
        ⟨none, [0x82, 0x86, 0x84, 0x40, 0x01, 0x78, 0x01, 0x61], 1, false, true⟩) rfl i hi] at hs
    cases hs

/-- Stream 1 opens a request with a body and adds `x: a` to the table; stream 3 adds `x: b`
before the body has come; stream 5 refers to the newest entry. -/
def interleavedUpload : List Http2Frame :=
  [.headers ⟨none, [0x82, 0x86, 0x84, 0x40, 0x01, 0x78, 0x01, 0x61], 1, false, true⟩,
    .headers ⟨none, [0x82, 0x86, 0x84, 0x40, 0x01, 0x78, 0x01, 0x62], 3, true, true⟩,
    .data ⟨[0x61], true, 1⟩,
    .headers ⟨none, [0x82, 0x86, 0x84, 0xBE], 5, true, true⟩]

/-- The frames are ones HTTP/2 allows and the peer's blocks are well formed, but the request
on stream 5 is served with `x: a`, where the peer means `x: b`. -/
theorem interleavedUpload_wrongList :
    Along (observe UriParser.plain) WireAllowed observedStart interleavedUpload ∧
      ¬ HeaderOrder UriParser.plain interleavedUpload := by
  refine ⟨by decide, fun h => ?_⟩
  have hlast := h (interleavedUpload.take 3)
    (.headers ⟨none, [0x82, 0x86, 0x84, 0xBE], 5, true, true⟩)
    [] 5 [(1, [⟨ascii ":method", ascii "GET"⟩, ⟨ascii ":scheme", ascii "http"⟩,
        ⟨ascii ":path", ascii "/"⟩, ⟨ascii "x", ascii "a"⟩]),
      (3, [⟨ascii ":method", ascii "GET"⟩, ⟨ascii ":scheme", ascii "http"⟩,
        ⟨ascii ":path", ascii "/"⟩, ⟨ascii "x", ascii "b"⟩]),
      (5, [⟨ascii ":method", ascii "GET"⟩, ⟨ascii ":scheme", ascii "http"⟩,
        ⟨ascii ":path", ascii "/"⟩, ⟨ascii "x", ascii "b"⟩])]
    rfl (by decide +kernel) (by decide +kernel)
  obtain ⟨fields, hfields, hhead⟩ := hlast.2
    ⟨⟨5, some .get, some (ascii "http"), none, some (ascii "/"), [⟨ascii "x", ascii "a"⟩]⟩, []⟩
    (by decide +kernel)
  obtain rfl : _ = fields := Option.some.inj hfields
  revert hhead
  decide +kernel

end SimpleServer.Http2
