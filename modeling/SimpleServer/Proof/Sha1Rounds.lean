import SimpleServer.Generic.Sha1
import SimpleServer.Lib.Sha1

/-!
# A block of SHA-1

The eighty lines turn the names of the working variables and keep sixteen words of the schedule in
place of the block.

* `blk0_loadBlock`: the words of the block, in either byte order.
* `AfterLines.step`: one line is one round.
* `stateWords_transform`: a block goes into the state as the hash function says.
-/

namespace SimpleServer.Generic

open Lib

variable {order : ByteOrder} {buffer : Bytes} {start : Sha1.Words} {work : Sha1Work} {i : ℕ}

/-! ## Words and bits -/

theorem append_byte_toNat {n : ℕ} (x : BitVec n) (b : UInt8) :
    (x ++ b.toBitVec).toNat = x.toNat * 256 + b.toNat := by
  have hb : b.toBitVec.toNat < 2 ^ 8 := b.toNat_lt
  rw [BitVec.toNat_append, ← Nat.shiftLeft_add_eq_or_of_lt hb, Nat.shiftLeft_eq]
  rfl

theorem toBitVec_ofBE (a b c d : UInt8) :
    (UInt32.ofNat (ofBE [a, b, c, d])).toBitVec =
      a.toBitVec ++ b.toBitVec ++ c.toBitVec ++ d.toBitVec := by
  have ha := a.toNat_lt
  have hb := b.toNat_lt
  have hc := c.toNat_lt
  have hd := d.toNat_lt
  have hvalue : ofBE [a, b, c, d] =
      ((a.toNat * 256 + b.toNat) * 256 + c.toNat) * 256 + d.toNat := by
    simp [ofBE]
  have hfirst : a.toBitVec.toNat = a.toNat := rfl
  apply BitVec.eq_of_toNat_eq
  rw [append_byte_toNat, append_byte_toNat, append_byte_toNat, UInt32.toNat_toBitVec,
    UInt32.toNat_ofNat', hvalue, hfirst]
  omega

/-- The bits of a word whose bytes are given, the highest first. -/
theorem getLsbD_ofBE (a b c d : UInt8) (i : ℕ) :
    (UInt32.ofNat (ofBE [a, b, c, d])).toBitVec.getLsbD i =
      if i < 8 then d.toBitVec.getLsbD i
      else if i < 16 then c.toBitVec.getLsbD (i - 8)
      else if i < 24 then b.toBitVec.getLsbD (i - 16)
      else a.toBitVec.getLsbD (i - 24) := by
  rw [toBitVec_ofBE, BitVec.getLsbD_append, BitVec.getLsbD_append, BitVec.getLsbD_append]
  split_ifs <;> first | rfl | omega

/-- The two rotations and masks swap the bytes of a word. -/
theorem rol_swap (a b c d : UInt8) :
    rol (UInt32.ofNat (ofBE [d, c, b, a])) 24 &&& 0xFF00FF00 |||
      rol (UInt32.ofNat (ofBE [d, c, b, a])) 8 &&& 0x00FF00FF =
      UInt32.ofNat (ofBE [a, b, c, d]) := by
  apply UInt32.toBitVec_inj.1
  apply BitVec.eq_of_getLsbD_eq
  intro i hi
  simp only [rol, UInt32.toBitVec_or, UInt32.toBitVec_and, UInt32.toBitVec_shiftLeft,
    UInt32.toBitVec_shiftRight, BitVec.getLsbD_or, BitVec.getLsbD_and]
  have hbits := getLsbD_ofBE d c b a
  generalize (UInt32.ofNat (ofBE [d, c, b, a])).toBitVec = word at hbits ⊢
  rw [getLsbD_ofBE]
  interval_cases i <;> simp [-BitVec.getLsbD_eq_getElem, hbits]

theorem mix_choose (x y z : UInt32) : x &&& (y ^^^ z) ^^^ z = Sha1.choose x y z := by
  apply UInt32.toBitVec_inj.1
  apply BitVec.eq_of_getLsbD_eq
  intro i hi
  simp only [Sha1.choose, UInt32.toBitVec_xor, UInt32.toBitVec_and, UInt32.toBitVec_not,
    BitVec.getLsbD_xor, BitVec.getLsbD_and, BitVec.getLsbD_not, hi, decide_true, Bool.true_and]
  cases x.toBitVec.getLsbD i <;> cases y.toBitVec.getLsbD i <;> cases z.toBitVec.getLsbD i <;> rfl

theorem mix_majority (x y z : UInt32) : (x ||| y) &&& z ||| x &&& y = Sha1.majority x y z := by
  apply UInt32.toBitVec_inj.1
  apply BitVec.eq_of_getLsbD_eq
  intro i hi
  simp only [Sha1.majority, UInt32.toBitVec_xor, UInt32.toBitVec_and, UInt32.toBitVec_or,
    BitVec.getLsbD_xor, BitVec.getLsbD_and, BitVec.getLsbD_or]
  cases x.toBitVec.getLsbD i <;> cases y.toBitVec.getLsbD i <;> cases z.toBitVec.getLsbD i <;> rfl

/-! ## The words of the block -/

theorem exists_four {l : Bytes} (h : l.length = 4) : ∃ a b c d, l = [a, b, c, d] := by
  obtain ⟨a, l, rfl⟩ := List.exists_cons_of_length_eq_add_one h
  obtain ⟨b, c, d, hrest⟩ := List.length_eq_three.1 (Nat.succ.inj h)
  exact ⟨a, b, c, d, by rw [hrest]⟩

/-- The word of a block does not depend on the byte order of the machine. -/
theorem blk0_loadBlock (hbuffer : buffer.length = 64) (hi : i < 16) {block : Sha1Block}
    (hblock : block (blkIndex i) = loadBlock order buffer (blkIndex i)) :
    blk0 order block i = Sha1.blockWord buffer i := by
  have hindex : (blkIndex i).val = i := Nat.mod_eq_of_lt hi
  have hfour : ((buffer.drop (4 * i)).take 4).length = 4 := by
    rw [List.length_take, List.length_drop]
    omega
  obtain ⟨a, b, c, d, hbytes⟩ := exists_four hfour
  cases order with
  | little =>
    have hload : block (blkIndex i) = UInt32.ofNat (ofBE [d, c, b, a]) := by
      rw [hblock, loadBlock, hindex, hbytes]
      rfl
    have hswap := rol_swap a b c d
    rw [← hload] at hswap
    rw [Sha1.blockWord, hbytes]
    exact hswap
  | big =>
    rw [Sha1.blockWord]
    rw [loadBlock, hindex] at hblock
    exact hblock

/-! ## The lines -/

/-- The macro of a round. -/
def macroAt (i : ℕ) : Sha1Macro :=
  if i < 16 then .r0
  else if i < 20 then .r1
  else if i < 40 then .r2
  else if i < 60 then .r3
  else .r4

/-- From line to line, every name takes the place of the next one. -/
def lineAt : ℕ → Sha1Line
  | 0 => ⟨.r0, .a, .b, .c, .d, .e, 0⟩
  | i + 1 =>
    ⟨macroAt (i + 1), (lineAt i).z, (lineAt i).v, (lineAt i).w, (lineAt i).x, (lineAt i).y, i + 1⟩

theorem sha1Lines_eq : sha1Lines = (List.range 80).map lineAt := by decide +kernel

theorem lineAt_i (i : ℕ) : (lineAt i).i = i := by
  cases i with
  | zero => rfl
  | succ i => rfl

theorem lineAt_op (i : ℕ) : (lineAt i).op = macroAt i := by
  cases i with
  | zero => rfl
  | succ i => rfl

/-- The five names of a line are different. -/
theorem lineAt_nodup (i : ℕ) :
    [(lineAt i).v, (lineAt i).w, (lineAt i).x, (lineAt i).y, (lineAt i).z].Nodup := by
  induction i with
  | zero => decide
  | succ i ih =>
    have hturn : [(lineAt i).z, (lineAt i).v, (lineAt i).w, (lineAt i).x, (lineAt i).y].Perm
        [(lineAt i).v, (lineAt i).w, (lineAt i).x, (lineAt i).y, (lineAt i).z] :=
      (List.perm_append_singleton (lineAt i).z
        [(lineAt i).v, (lineAt i).w, (lineAt i).x, (lineAt i).y]).symm
    exact hturn.nodup_iff.2 ih

theorem mix_macroAt (i : ℕ) (x y z : UInt32) :
    (macroAt i).mix x y z = Sha1.roundFunction i x y z := by
  have hchoose := mix_choose x y z
  have hmajority := mix_majority x y z
  unfold macroAt Sha1.roundFunction
  split_ifs <;> first | omega | rfl | exact hchoose | exact hmajority

theorem constant_macroAt (i : ℕ) : (macroAt i).constant = Sha1.roundConstant i := by
  unfold macroAt Sha1.roundConstant
  split_ifs <;> first | omega | rfl

/-! ## The rounds -/

/-- The working variables and the block before line `i`: the names of the line stand for the
variables of the hash function, and the block holds the last words of the schedule. -/
structure AfterLines (order : ByteOrder) (buffer : Bytes) (start : Sha1.Words) (i : ℕ)
    (work : Sha1Work) : Prop where
  v : work.vars (lineAt i).v = (Sha1.rounds buffer start i).a
  w : work.vars (lineAt i).w = (Sha1.rounds buffer start i).b
  x : work.vars (lineAt i).x = (Sha1.rounds buffer start i).c
  y : work.vars (lineAt i).y = (Sha1.rounds buffer start i).d
  z : work.vars (lineAt i).z = (Sha1.rounds buffer start i).e
  words : ∀ t < i, i ≤ t + 16 → work.block (blkIndex t) = Sha1.schedule buffer t
  raw : ∀ t < 16, i ≤ t → work.block (blkIndex t) = loadBlock order buffer (blkIndex t)

theorem schedule_of_lt {t : ℕ} (ht : t < 16) :
    Sha1.schedule buffer t = Sha1.blockWord buffer t := by
  rw [Sha1.schedule, if_pos ht]

theorem schedule_of_ge {t : ℕ} (ht : 16 ≤ t) :
    Sha1.schedule buffer t =
      Sha1.rotateLeft (Sha1.schedule buffer (t - 3) ^^^ Sha1.schedule buffer (t - 8) ^^^
        Sha1.schedule buffer (t - 14) ^^^ Sha1.schedule buffer (t - 16)) 1 := by
  rw [Sha1.schedule, if_neg (by omega)]

theorem blkIndex_eq {s t : ℕ} (h : s % 16 = t % 16) : blkIndex s = blkIndex t :=
  Fin.ext h

/-- The word of a line is the word of the schedule. -/
theorem AfterLines.word (h : AfterLines order buffer start i work) (hbuffer : buffer.length = 64) :
    (macroAt i).word order work.block i = Sha1.schedule buffer i := by
  by_cases hi : i < 16
  · have hnamed : macroAt i = .r0 := if_pos hi
    rw [hnamed, schedule_of_lt hi]
    exact blk0_loadBlock hbuffer hi (h.raw i hi le_rfl)
  · have hword : (macroAt i).word order work.block i = blk work.block i := by
      unfold macroAt
      split_ifs <;> first | omega | rfl
    have hback : ∀ k s, 1 ≤ k → k ≤ 16 → s + k = i + 16 →
        work.block (blkIndex s) = Sha1.schedule buffer (i - k) := by
      intro k s hone hsixteen hs
      rw [blkIndex_eq (show s % 16 = (i - k) % 16 by omega)]
      exact h.words (i - k) (by omega) (by omega)
    have hthis : work.block (blkIndex i) = Sha1.schedule buffer (i - 16) :=
      hback 16 i (by omega) le_rfl rfl
    rw [hword, blk, hback 3 (i + 13) (by omega) (by omega) (by omega),
      hback 8 (i + 8) (by omega) (by omega) (by omega),
      hback 14 (i + 2) (by omega) (by omega) (by omega), hthis,
      schedule_of_ge (not_lt.1 hi)]
    rfl

/-- **One line is one round.** -/
theorem AfterLines.step (h : AfterLines order buffer start i work)
    (hbuffer : buffer.length = 64) :
    AfterLines order buffer start (i + 1) ((lineAt i).run order work) := by
  have hword := h.word hbuffer
  have hnodup := lineAt_nodup i
  simp only [List.nodup_cons, List.mem_cons, List.not_mem_nil, or_false, not_or] at hnodup
  obtain ⟨⟨hvw, -, -, hvz⟩, ⟨hwx, hwy, hwz⟩, ⟨-, hxz⟩, hyz, -⟩ := hnodup
  have hvars : ∀ name, name ≠ (lineAt i).w → name ≠ (lineAt i).z →
      ((lineAt i).run order work).vars name = work.vars name := by
    intro name hw hz
    simp only [Sha1Line.run, Function.update_of_ne hw, Function.update_of_ne hz]
  have hblock : ∀ t, ((lineAt i).run order work).block (blkIndex t) =
      if t % 16 = i % 16 then Sha1.schedule buffer i else work.block (blkIndex t) := by
    intro t
    simp only [Sha1Line.run, lineAt_i, lineAt_op, hword, Function.update_apply, Fin.ext_iff,
      blkIndex]
  refine { v := ?_, w := ?_, x := ?_, y := ?_, z := ?_, words := ?_, raw := ?_ }
  · have hz : ((lineAt i).run order work).vars (lineAt i).z = work.vars (lineAt i).z +
        ((macroAt i).mix (work.vars (lineAt i).w) (work.vars (lineAt i).x)
          (work.vars (lineAt i).y) + Sha1.schedule buffer i + (macroAt i).constant +
          rol (work.vars (lineAt i).v) 5) := by
      simp only [Sha1Line.run, Function.update_of_ne (Ne.symm hwz), Function.update_self, lineAt_i,
        lineAt_op, hword]
    have hround : (Sha1.rounds buffer start (i + 1)).a =
        Sha1.rotateLeft (Sha1.rounds buffer start i).a 5 +
          Sha1.roundFunction i (Sha1.rounds buffer start i).b (Sha1.rounds buffer start i).c
            (Sha1.rounds buffer start i).d + (Sha1.rounds buffer start i).e +
          Sha1.roundConstant i + Sha1.schedule buffer i := rfl
    have hrol : rol (Sha1.rounds buffer start i).a 5 =
      Sha1.rotateLeft (Sha1.rounds buffer start i).a 5 := rfl
    have hname : (lineAt (i + 1)).v = (lineAt i).z := rfl
    rw [hname, hz, h.v, h.w, h.x, h.y, h.z, mix_macroAt, constant_macroAt, hround, hrol]
    ac_rfl
  · exact (hvars _ hvw hvz).trans h.v
  · have hw : ((lineAt i).run order work).vars (lineAt i).w = rol (work.vars (lineAt i).w) 30 := by
      simp only [Sha1Line.run, Function.update_self, Function.update_of_ne hwz]
    have hname : (lineAt (i + 1)).x = (lineAt i).w := rfl
    rw [hname, hw, h.w]
    rfl
  · exact (hvars _ (Ne.symm hwx) hxz).trans h.x
  · exact (hvars _ (Ne.symm hwy) hyz).trans h.y
  · intro t ht hlast
    rw [hblock]
    by_cases hi : t = i
    · rw [hi, if_pos rfl]
    · rw [if_neg (by omega)]
      exact h.words t (by omega) (by omega)
  · intro t ht hlast
    rw [hblock, if_neg (by omega)]
    exact h.raw t ht (by omega)

/-- The words of a state. -/
def stateWords (state : Vector UInt32 5) : Sha1.Words :=
  ⟨stateVars state .a, stateVars state .b, stateVars state .c, stateVars state .d,
    stateVars state .e⟩

theorem afterLines_start (order : ByteOrder) (buffer : Bytes) (state : Vector UInt32 5) :
    AfterLines order buffer (stateWords state) 0
      { vars := stateVars state, block := loadBlock order buffer } where
  v := rfl
  w := rfl
  x := rfl
  y := rfl
  z := rfl
  words t ht _ := by omega
  raw t _ _ := rfl

theorem AfterLines.lines (h : AfterLines order buffer start 0 work) (hbuffer : buffer.length = 64)
    (n : ℕ) :
    AfterLines order buffer start n
      (((List.range n).map lineAt).foldl (fun work line => line.run order work) work) := by
  induction n with
  | zero => exact h
  | succ n ih =>
    rw [List.range_succ, List.map_append, List.foldl_append]
    exact ih.step hbuffer

/-- **A block of SHA-1**: `SHA1Transform` adds to the state what eighty rounds make of it. -/
theorem stateWords_transform (order : ByteOrder) (state : Vector UInt32 5)
    (hbuffer : buffer.length = 64) :
    stateWords (sha1Transform order state buffer) =
      Sha1.blocks.compress (stateWords state) buffer := by
  have hlines := (afterLines_start order buffer state).lines hbuffer 80
  rw [← sha1Lines_eq] at hlines
  -- after eighty lines the names are back at their places
  have hnames : lineAt 80 = ⟨.r4, .a, .b, .c, .d, .e, 80⟩ := by decide +kernel
  obtain ⟨ha, hb, hc, hd, he, -, -⟩ := hlines
  rw [hnames] at ha hb hc hd he
  have hcompress : Sha1.blocks.compress (stateWords state) buffer =
      (stateWords state).add (Sha1.rounds buffer (stateWords state) 80) := rfl
  rw [hcompress, Sha1.Words.add, ← ha, ← hb, ← hc, ← hd, ← he]
  rfl

end SimpleServer.Generic
