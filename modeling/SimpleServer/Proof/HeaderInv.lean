import SimpleServer.Proof.HeaderBlocks

/-!
# The invariant of the header blocks

At most one stream waits with a complete block for the rest of its request, and its block
is the only complete one that is not decoded (`OrderInv`).

* `OrderInv.keep`: steps that open, complete and decode no block.
* `OrderInv.block`: a frame that adds to a block and may complete it.
* `OrderInv.dataEnd`: the end of the request of the stream that waits.
-/

namespace SimpleServer.Http2

open Lib Hpack

variable {Authority UrlPath : Type}

/-- The decompress state after some blocks. -/
def decodeRun (state : HpackDecompressState) (blocks : List (ℕ × Bytes)) : HpackDecompressState :=
  blocks.foldl (fun s b => (http2HpackDecompressData s b.2).1) state

theorem decodeRun_append (state : HpackDecompressState) (blocks : List (ℕ × Bytes))
    (p : ℕ × Bytes) :
    decodeRun state (blocks ++ [p]) =
      (http2HpackDecompressData (decodeRun state blocks) p.2).1 := by
  simp [decodeRun]

/-- At most one stream waits, and its block is the only complete one that is not decoded. -/
structure OrderInv (o : Observed) : Prop where
  table : o.context.state.hpackState.decompressState = decodeRun startState o.decoded
  waiting : ∃ w : Option (ℕ × Bytes), o.wire.completed = o.decoded ++ w.toList ∧
    (∀ i s, o.context.streams i = some s → Waiting s → ∃ b, w = some (i, b)) ∧
    ∀ i b, w = some (i, b) → ∃ s, o.context.streams i = some s ∧ Waiting s ∧ s.state = .open ∧
      http2ConcatDataBlocks s.headers.headerBlocks = b
  partialBlock : ∀ i b, o.wire.partialBlock = some (i, b) →
    i ∉ o.wire.completed.map Prod.fst ∧ ∃ s, o.context.streams i = some s ∧ s.state = .open ∧
      s.headers.finished = false ∧ http2ConcatDataBlocks s.headers.headerBlocks = b
  idle : ∀ i s, o.context.streams i = some s → s.state = .idle → s = idleStream s.priority
  seen : ∀ i ∈ o.wire.completed.map Prod.fst, ∃ s, o.context.streams i = some s ∧ s.state ≠ .idle
  once : (o.wire.completed.map Prod.fst).Nodup

variable {uri : UriParser Authority UrlPath} {o o' : Observed} {f : Http2Frame} {id : ℕ}

theorem orderInv_start : OrderInv observedStart := by
  refine ⟨rfl, ⟨none, rfl, nofun, nofun⟩, nofun, nofun, ?_, List.nodup_nil⟩
  intro i hi
  cases hi

/-- How a slot may change while no block is opened, completed or decoded. -/
inductive SlotKept : Option Http2Stream → Option Http2Stream → Prop where
  | unchanged (a : Option Http2Stream) : SlotKept a a
  | fresh (p : Http2FramePriority) : SlotKept none (some (idleStream p))
  | prioritised (s : Http2Stream) (p : Http2FramePriority) :
      SlotKept (some s) (some { s with priority := p })
  | ended (s s' : Http2Stream) (hs : ¬ Waiting s) (hs' : ¬ Waiting s') (hst : s'.state ≠ .idle) :
      SlotKept (some s) (some s')
  | more (s : Http2Stream) (content : Http2StreamContent) (hst : s.state ≠ .idle) :
      SlotKept (some s) (some { s with content := content })

namespace SlotKept

variable {a b : Option Http2Stream} {s s' : Http2Stream}

theorem seen (h : SlotKept a b) (ha : a = some s) (hst : s.state ≠ .idle) :
    ∃ s', b = some s' ∧ s'.state ≠ .idle := by
  cases h with
  | unchanged => exact ⟨s, ha, hst⟩
  | fresh p => cases ha
  | prioritised t p => cases ha; exact ⟨_, rfl, hst⟩
  | ended t t' _ _ h' => exact ⟨t', rfl, h'⟩
  | more t c ht => exact ⟨_, rfl, ht⟩

theorem idle (h : SlotKept a b) (hb : b = some s') (hst : s'.state = .idle)
    (ha : ∀ s, a = some s → s.state = .idle → s = idleStream s.priority) :
    s' = idleStream s'.priority := by
  cases h with
  | unchanged => exact ha s' hb hst
  | fresh p => cases hb; rfl
  | prioritised t p =>
    cases hb
    rw [ha t rfl hst]
    rfl
  | ended t t' _ _ h' => cases hb; exact absurd hst h'
  | more t c ht => cases hb; exact absurd hst ht

theorem waiting (h : SlotKept a b) (hb : b = some s') (hw : Waiting s') :
    ∃ s, a = some s ∧ Waiting s := by
  cases h with
  | unchanged => exact ⟨s', hb, hw⟩
  | fresh p => cases hb; cases hw.1
  | prioritised t p => cases hb; exact ⟨t, rfl, hw⟩
  | ended t t' _ h' _ => cases hb; exact absurd hw h'
  | more t c ht => cases hb; exact ⟨t, rfl, hw⟩

theorem keeps_waiting (h : SlotKept a b) (ha : a = some s) (hw : Waiting s) :
    ∃ s', b = some s' ∧ Waiting s' ∧ s'.state = s.state ∧ s'.headers = s.headers := by
  cases h with
  | unchanged => exact ⟨s, ha, hw, rfl, rfl⟩
  | fresh p => cases ha
  | prioritised t p => cases ha; exact ⟨_, rfl, hw, rfl, rfl⟩
  | ended t t' h' _ _ => cases ha; exact absurd hw h'
  | more t c ht => cases ha; exact ⟨_, rfl, hw, rfl, rfl⟩

end SlotKept

/-- A step that opens, completes and decodes no block and only changes slots as allowed. -/
theorem OrderInv.keep (h : OrderInv o)
    (htable : o'.context.state.hpackState.decompressState =
      o.context.state.hpackState.decompressState)
    (hnoPart : o'.wire.partialBlock = none) (hcompleted : o'.wire.completed = o.wire.completed)
    (hdecoded : o'.decoded = o.decoded)
    (hslots : ∀ i, SlotKept (o.context.streams i) (o'.context.streams i)) : OrderInv o' := by
  obtain ⟨w, hw, hw1, hw2⟩ := h.waiting
  refine ⟨by rw [htable, hdecoded, h.table], ⟨w, by rw [hcompleted, hdecoded, hw], ?_, ?_⟩,
    ?_, ?_, ?_, by rw [hcompleted]; exact h.once⟩
  · intro i s hs hwait
    obtain ⟨t, ht, htw⟩ := (hslots i).waiting hs hwait
    exact hw1 i t ht htw
  -- the block that waits is that of the same stream, with the same fragments
  · intro i b hib
    obtain ⟨s, hs, hwait, hopen, hb⟩ := hw2 i b hib
    obtain ⟨s', hs', hwait', hst, hh⟩ := (hslots i).keeps_waiting hs hwait
    exact ⟨s', hs', hwait', by rw [hst, hopen], by rw [hh, hb]⟩
  · intro i b hib
    rw [hnoPart] at hib
    cases hib
  · intro i s hs hst
    exact (hslots i).idle hs hst (h.idle i)
  · intro i hi
    rw [hcompleted] at hi
    obtain ⟨s, hs, hst⟩ := h.seen i hi
    exact (hslots i).seen hs hst

/-- A stream on which a block is opened has no complete block yet. -/
theorem OrderInv.not_completed (h : OrderInv o)
    (hid : o.context.streams id = none ∨ IdleEntry o.context id) :
    id ∉ o.wire.completed.map Prod.fst := by
  intro hmem
  obtain ⟨s, hs, hst⟩ := h.seen id hmem
  rcases hid with hid | hid
  · rw [hs] at hid; cases hid
  · rw [IdleEntry, hs, Option.map_some, Option.some.injEq] at hid
    exact hst hid

theorem OrderInv.none_waiting (h : OrderInv o) (hno : NoneWaiting o.context) :
    o.wire.completed = o.decoded := by
  obtain ⟨w, hw, -, hw2⟩ := h.waiting
  cases w with
  | none => simpa using hw
  -- a block that is not decoded belongs to a stream that waits
  | some p =>
    obtain ⟨s, hs, hwait, -, -⟩ := hw2 p.1 p.2 rfl
    exact absurd hwait (hno _ s hs)

/-- The stream that waits is the only one, it is open, and its block comes last. -/
theorem OrderInv.of_waiting (h : OrderInv o) {s : Http2Stream} (hs : o.context.streams id = some s)
    (hwait : Waiting s) :
    o.wire.completed = o.decoded ++ [(id, http2ConcatDataBlocks s.headers.headerBlocks)] ∧
      (∀ i t, o.context.streams i = some t → Waiting t → i = id) := by
  obtain ⟨w, hw, hw1, hw2⟩ := h.waiting
  obtain ⟨b, rfl⟩ := hw1 id s hs hwait
  obtain ⟨t, ht, -, -, hb⟩ := hw2 id b rfl
  obtain rfl : s = t := Option.some.inj (hs.symm.trans ht)
  refine ⟨by rw [hw, hb]; rfl, ?_⟩
  intro i t hti htw
  obtain ⟨b', hb'⟩ := hw1 i t hti htw
  rw [Option.some.injEq, Prod.mk.injEq] at hb'
  exact hb'.1.symm

theorem OrderInv.open_of_waiting (h : OrderInv o) {s : Http2Stream}
    (hs : o.context.streams id = some s) (hwait : Waiting s) : s.state = .open := by
  obtain ⟨w, -, hw1, hw2⟩ := h.waiting
  obtain ⟨b, rfl⟩ := hw1 id s hs hwait
  obtain ⟨t, ht, -, hopen, -⟩ := hw2 id b rfl
  obtain rfl : s = t := Option.some.inj (hs.symm.trans ht)
  exact hopen

/-- A step that writes the slot of stream `id` and no other. -/
structure Writes (o o' : Observed) (id : ℕ) (s' : Http2Stream) : Prop where
  slot : o'.context.streams id = some s'
  others : ∀ i, i ≠ id → o'.context.streams i = o.context.streams i
  state : s'.state ≠ .idle

namespace Writes

variable {s' : Http2Stream}

theorem idle (hw : Writes o o' id s') (h : OrderInv o) {i : ℕ} {s : Http2Stream}
    (hs : o'.context.streams i = some s) (hst : s.state = .idle) : s = idleStream s.priority := by
  by_cases hi : i = id
  · subst hi
    rw [hw.slot, Option.some.injEq] at hs
    subst hs
    exact absurd hst hw.state
  · rw [hw.others i hi] at hs
    exact h.idle i s hs hst

theorem seen (hw : Writes o o' id s') (h : OrderInv o) {i : ℕ}
    (hi : i ∈ o.wire.completed.map Prod.fst) :
    ∃ s, o'.context.streams i = some s ∧ s.state ≠ .idle := by
  by_cases hid : i = id
  · subst hid; exact ⟨s', hw.slot, hw.state⟩
  · rw [hw.others i hid]; exact h.seen i hi

/-- A stream that waits afterwards has waited before, or it is the one that is written. -/
theorem waiting (hw : Writes o o' id s') {i : ℕ} {s : Http2Stream}
    (hs : o'.context.streams i = some s) (hwait : Waiting s) :
    (i = id ∧ Waiting s') ∨ (i ≠ id ∧ o.context.streams i = some s) := by
  by_cases hi : i = id
  · subst hi
    rw [hw.slot, Option.some.injEq] at hs
    subst hs
    exact .inl ⟨rfl, hwait⟩
  · rw [hw.others i hi] at hs
    exact .inr ⟨hi, hs⟩

end Writes

/-- A frame that opens or continues a header block of stream `id` without completing it. -/
theorem OrderInv.blockOpen (h : OrderInv o) {s' : Http2Stream} {b : Bytes}
    (hw : Writes o o' id s') (hopen : s'.state = .open) (hfin : s'.headers.finished = false)
    (hb : http2ConcatDataBlocks s'.headers.headerBlocks = b)
    (hnew : id ∉ o.wire.completed.map Prod.fst)
    (hold : ∀ s, o.context.streams id = some s → ¬ Waiting s)
    (hwire : o'.wire = ⟨some (id, b), o.wire.completed⟩) (hdecoded : o'.decoded = o.decoded)
    (htable : o'.context.state.hpackState.decompressState =
      o.context.state.hpackState.decompressState) : OrderInv o' := by
  obtain ⟨w, hcd, hw1, hw2⟩ := h.waiting
  refine ⟨by rw [htable, hdecoded, h.table], ⟨w, by rw [hwire, hdecoded, hcd], ?_, ?_⟩, ?_,
    fun i s => hw.idle h, ?_, by rw [hwire]; exact h.once⟩
  · intro i s hs hwait
    rcases hw.waiting hs hwait with ⟨-, hw'⟩ | ⟨-, hs'⟩
    · rw [hw'.1] at hfin; cases hfin
    · exact hw1 i s hs' hwait
  -- the stream that waits is another one, so its slot is as before
  · intro i b' hib
    obtain ⟨s, hs, hwait, hopen, hb'⟩ := hw2 i b' hib
    have hi : i ≠ id := fun hi => hold s (hi ▸ hs) hwait
    exact ⟨s, by rw [hw.others i hi, hs], hwait, hopen, hb'⟩
  · intro i b' hib
    rw [hwire, Option.some.injEq, Prod.mk.injEq] at hib
    obtain ⟨rfl, rfl⟩ := hib
    rw [hwire]
    exact ⟨hnew, s', hw.slot, hopen, hfin, hb⟩
  · intro i hi
    rw [hwire] at hi
    exact hw.seen h hi

/-- A frame that completes the header block of stream `id` while no stream waits. With
END_STREAM the request is finished and the block decoded, else the stream waits. -/
theorem OrderInv.blockDone (h : OrderInv o) {s' : Http2Stream} {b : Bytes}
    (hw : Writes o o' id s') (hopen : s'.endStream = false → s'.state = .open)
    (hfin : s'.headers.finished = true)
    (hb : http2ConcatDataBlocks s'.headers.headerBlocks = b)
    (hnew : id ∉ o.wire.completed.map Prod.fst) (hno : NoneWaiting o.context)
    (hwire : o'.wire = ⟨none, o.wire.completed ++ [(id, b)]⟩)
    (hdecoded : o'.decoded =
      if s'.endStream = true then o.decoded ++ [(id, b)] else o.decoded)
    (htable : o'.context.state.hpackState.decompressState =
      if s'.endStream = true then
        (http2HpackDecompressData o.context.state.hpackState.decompressState b).1
      else o.context.state.hpackState.decompressState) : OrderInv o' := by
  -- nothing waits, hence nothing complete is left to decode before this block
  have hcd := h.none_waiting hno
  have hcompleted : o'.wire.completed = o.wire.completed ++ [(id, b)] := by rw [hwire]
  have honce : (o'.wire.completed.map Prod.fst).Nodup := by
    rw [hcompleted, List.map_append]
    refine List.nodup_append.2 ⟨h.once, List.nodup_singleton _, ?_⟩
    intro x hx y hy hxy
    rw [List.map_cons, List.map_nil, List.mem_singleton] at hy
    rw [hxy, hy] at hx
    exact hnew hx
  have hseen : ∀ i ∈ o'.wire.completed.map Prod.fst, ∃ s, o'.context.streams i = some s ∧
      s.state ≠ .idle := by
    intro i hi
    rw [hcompleted, List.map_append, List.mem_append] at hi
    rcases hi with hi | hi
    · exact hw.seen h hi
    · rw [List.map_cons, List.map_nil, List.mem_singleton] at hi
      exact ⟨s', by rw [hi]; exact hw.slot, hw.state⟩
  have hnopartial : ∀ i b', o'.wire.partialBlock = some (i, b') →
      i ∉ o'.wire.completed.map Prod.fst ∧ ∃ s, o'.context.streams i = some s ∧
        s.state = .open ∧ s.headers.finished = false ∧
        http2ConcatDataBlocks s.headers.headerBlocks = b' := by
    intro i b' hib
    rw [hwire] at hib
    cases hib
  cases hend : s'.endStream with
  -- the request ends with its block, which is decoded at once
  | true =>
    rw [hend, if_pos rfl] at hdecoded htable
    refine ⟨by rw [htable, hdecoded, h.table, decodeRun_append],
      ⟨none, by rw [hcompleted, hdecoded, hcd]; simp, ?_, nofun⟩, hnopartial, fun i s => hw.idle h,
      hseen, honce⟩
    intro i s hs hwait
    rcases hw.waiting hs hwait with ⟨-, hw'⟩ | ⟨-, hs'⟩
    · rw [hw'.2] at hend; cases hend
    · exact absurd hwait (hno i s hs')
  -- the block is complete and the body is to come: this stream is the one that waits
  | false =>
    rw [hend, if_neg Bool.false_ne_true] at hdecoded htable
    refine ⟨by rw [htable, hdecoded, h.table],
      ⟨some (id, b), by rw [hcompleted, hdecoded, hcd]; simp, ?_, ?_⟩, hnopartial,
      fun i s => hw.idle h, hseen, honce⟩
    · intro i s hs hwait
      rcases hw.waiting hs hwait with ⟨rfl, -⟩ | ⟨-, hs'⟩
      · exact ⟨b, rfl⟩
      · exact absurd hwait (hno i s hs')
    · intro i b' hib
      rw [Option.some.injEq, Prod.mk.injEq] at hib
      obtain ⟨rfl, rfl⟩ := hib
      exact ⟨s', hw.slot, ⟨hfin, hend⟩, hopen hend, hb⟩

/-- A frame that adds to the header block of stream `id`, and may complete it and the request
with it. -/
theorem OrderInv.block (h : OrderInv o) (id : ℕ) (s' : Http2Stream) (b : Bytes) (fin : Bool)
    (hslot : o'.context.streams id = some s')
    (hothers : ∀ i, i ≠ id → o'.context.streams i = o.context.streams i)
    (hfin : s'.headers.finished = fin) (hb : http2ConcatDataBlocks s'.headers.headerBlocks = b)
    (hstate : s'.state = if s'.endStream = true ∧ fin = true then .halfClosed else .open)
    (hnew : id ∉ o.wire.completed.map Prod.fst)
    (hold : ∀ s, o.context.streams id = some s → ¬ Waiting s)
    (hwire : o'.wire = if fin = true then ⟨none, o.wire.completed ++ [(id, b)]⟩
      else ⟨some (id, b), o.wire.completed⟩)
    (hno : fin = true → NoneWaiting o.context)
    (hdecoded : o'.decoded =
      if s'.endStream = true ∧ fin = true then o.decoded ++ [(id, b)] else o.decoded)
    (htable : o'.context.state.hpackState.decompressState =
      if s'.endStream = true ∧ fin = true then
        (http2HpackDecompressData o.context.state.hpackState.decompressState b).1
      else o.context.state.hpackState.decompressState) : OrderInv o' := by
  have hw : Writes o o' id s' := ⟨hslot, hothers, by rw [hstate]; split <;> simp⟩
  cases fin with
  | false =>
    simp only [Bool.false_eq_true, if_false, and_false] at hwire hdecoded htable hstate
    exact h.blockOpen hw hstate hfin hb hnew hold hwire hdecoded htable
  | true =>
    simp only [if_true, and_true] at hwire hdecoded htable hstate
    exact h.blockDone hw (fun he => by rw [hstate, he]; rfl) hfin hb hnew (hno rfl) hwire hdecoded
      htable

/-- The DATA frame that ends the request of the stream that waits. -/
theorem OrderInv.dataEnd (h : OrderInv o) {s s' : Http2Stream}
    (hs : o.context.streams id = some s) (hwait : Waiting s) (hw : Writes o o' id s')
    (hs' : s'.endStream = true)
    (hnoPart : o'.wire.partialBlock = none) (hcompleted : o'.wire.completed = o.wire.completed)
    (hdecoded : o'.decoded =
      o.decoded ++ [(id, http2ConcatDataBlocks s.headers.headerBlocks)])
    (htable : o'.context.state.hpackState.decompressState =
      (http2HpackDecompressData o.context.state.hpackState.decompressState
        (http2ConcatDataBlocks s.headers.headerBlocks)).1) : OrderInv o' := by
  -- the block that is decoded now is the last complete one, and none is left after it
  obtain ⟨hcd, hunique⟩ := h.of_waiting hs hwait
  refine ⟨by rw [htable, hdecoded, h.table, decodeRun_append],
    ⟨none, by rw [hcompleted, hdecoded, hcd]; simp, ?_, nofun⟩, ?_, fun i s => hw.idle h, ?_,
    by rw [hcompleted]; exact h.once⟩
  · intro i t hti htw
    rcases hw.waiting hti htw with ⟨-, hw'⟩ | ⟨hi, ht⟩
    · rw [hw'.2] at hs'; cases hs'
    · exact absurd (hunique i t ht htw) hi
  · intro i b' hib
    rw [hnoPart] at hib
    cases hib
  · intro i hi
    rw [hcompleted] at hi
    exact hw.seen h hi

end SimpleServer.Http2
