import Mathlib.Data.List.GetD
import Mathlib.Data.Nat.NthRoot.Defs
import Mathlib.Data.Nat.Prime.Basic
import Mathlib.Data.Nat.Sqrt
import Mathlib.Tactic.Linarith
import Mathlib.Tactic.Ring
import ProofSize.Digest

/-!
# The standard of SHA-256

FIPS 180-4 defines SHA-256 by words with indices: a block has sixteen words, the schedule continues them
by a recurrence, and each of sixty-four rounds takes one word of it. That is stated here over bit
vectors, with the constants as roots of primes and the padding as what it has to be, and the digests of
files are digests of this standard.

## Key results

- `Standard.schedule_eq`: the schedule of a block follows the recurrence
- `Standard.isDigest_sha256`: the digest of a message is the one of the standard
- `isSha256_iff`: the text that cites a content, and no other, is its digest in hexadecimal
-/

namespace ProofSize.Digest

namespace Standard

/-! ### The standard -/

/-- The first 64 primes. -/
def primes : List Nat := (List.range 312).filter Nat.Prime

/-- The first 32 bits of the fraction parts of the square roots of the first eight primes. -/
def initialWords : List (BitVec 32) :=
  (primes.take 8).map fun p => BitVec.ofNat 32 (Nat.sqrt (p * 2 ^ 64))

/-- The first 32 bits of the fraction parts of the cube roots of the first 64 primes. -/
def roundConstants : List (BitVec 32) :=
  primes.map fun p => BitVec.ofNat 32 (Nat.nthRoot 3 (p * 2 ^ 96))

/-- Each bit of the first word chooses between those of the other two. -/
def choose (x y z : BitVec 32) : BitVec 32 := (x &&& y) ^^^ (~~~x &&& z)

/-- Each bit is the one that most of the words have. -/
def majority (x y z : BitVec 32) : BitVec 32 := (x &&& y) ^^^ (x &&& z) ^^^ (y &&& z)

def bigSigma0 (x : BitVec 32) : BitVec 32 := x.rotateRight 2 ^^^ x.rotateRight 13 ^^^ x.rotateRight 22

def bigSigma1 (x : BitVec 32) : BitVec 32 := x.rotateRight 6 ^^^ x.rotateRight 11 ^^^ x.rotateRight 25

def smallSigma0 (x : BitVec 32) : BitVec 32 := x.rotateRight 7 ^^^ x.rotateRight 18 ^^^ x >>> 3

def smallSigma1 (x : BitVec 32) : BitVec 32 := x.rotateRight 17 ^^^ x.rotateRight 19 ^^^ x >>> 10

/-- The number that bytes denote, the highest byte first. -/
def number (bytes : List UInt8) : Nat := bytes.foldl (fun n b => 256 * n + b.toNat) 0

/-- The word at an index, of words of four bytes. -/
def wordAt (bytes : List UInt8) (i : Nat) : BitVec 32 :=
  BitVec.ofNat 32 (number ((bytes.drop (4 * i)).take 4))

/-- The words of the schedule of a block, which start with those of the block. -/
def schedule (block : Nat → BitVec 32) (t : Nat) : BitVec 32 :=
  if t < 16 then block t
  else smallSigma1 (schedule block (t - 2)) + schedule block (t - 7) +
    smallSigma0 (schedule block (t - 15)) + schedule block (t - 16)
termination_by t

/-- The eight words that are passed from round to round and from block to block. -/
structure Registers where
  a : BitVec 32
  b : BitVec 32
  c : BitVec 32
  d : BitVec 32
  e : BitVec 32
  f : BitVec 32
  g : BitVec 32
  h : BitVec 32

namespace Registers

/-- One round, with its constant and its word of the schedule. -/
def round (s : Registers) (constant word : BitVec 32) : Registers :=
  let t1 := s.h + bigSigma1 s.e + choose s.e s.f s.g + constant + word
  let t2 := bigSigma0 s.a + majority s.a s.b s.c
  ⟨t1 + t2, s.a, s.b, s.c, s.d + t1, s.e, s.f, s.g⟩

def add (s t : Registers) : Registers :=
  ⟨s.a + t.a, s.b + t.b, s.c + t.c, s.d + t.d, s.e + t.e, s.f + t.f, s.g + t.g, s.h + t.h⟩

def words (s : Registers) : List (BitVec 32) := [s.a, s.b, s.c, s.d, s.e, s.f, s.g, s.h]

/-- The registers behind a block, given those before it. -/
def compress (s : Registers) (block : Nat → BitVec 32) : Registers :=
  s.add ((List.range 64).foldl (fun r t => r.round (roundConstants.getD t 0) (schedule block t)) s)

/-- The registers behind all blocks of a padded message. -/
def ofBlocks (start : Registers) (padded : List UInt8) : Registers :=
  (List.range (padded.length / 64)).foldl
    (fun s i => s.compress fun t => wordAt padded (16 * i + t)) start

end Registers

/-- The message with a bit behind it, then no more zeros than are needed to leave eight bytes of a block,
    and in these the number of its bits. -/
def IsPadded (message padded : List UInt8) : Prop :=
  ∃ (zeros : Nat) (length : List UInt8),
    padded = message ++ 0x80 :: (List.replicate zeros 0 ++ length) ∧
    zeros < 64 ∧ (message.length + 1 + zeros) % 64 = 56 ∧
    length.length = 8 ∧ number length = 8 * message.length % 2 ^ 64

/-- The 32 bytes are the words that the blocks of the padded message lead to. -/
def IsDigest (message digest : List UInt8) : Prop :=
  ∃ (padded : List UInt8) (start : Registers), IsPadded message padded ∧ start.words = initialWords ∧
    digest.length = 32 ∧ (List.range 8).map (wordAt digest) = (start.ofBlocks padded).words

/-! ### Constants and functions of words -/

/-- The initial state holds the words of the standard. -/
theorem words_initial : initial.words.map (·.toBitVec) = initialWords := by
  decide +kernel

/-- The constants of the rounds are those of the standard. -/
theorem map_constants : constants.map (·.toBitVec) = roundConstants := by
  decide +kernel

/-- Two shifts make a rotation. -/
theorem toBitVec_rotateRight (x : UInt32) {n : Nat} (hpos : 0 < n) (h : n < 32) :
    (rotateRight x (UInt32.ofNat n)).toBitVec = x.toBitVec.rotateRight n := by
  have hshift : (4294967296 - n % 4294967296) % 32 = 32 - n := by omega
  rw [BitVec.rotateRight_def, Nat.mod_eq_of_lt h, rotateRight]
  simp [hshift, Nat.mod_eq_of_lt h]

/-- The registers that a state is. -/
def registers (s : State) : Registers :=
  ⟨s.a.toBitVec, s.b.toBitVec, s.c.toBitVec, s.d.toBitVec, s.e.toBitVec, s.f.toBitVec, s.g.toBitVec,
    s.h.toBitVec⟩

/-- States are added register by register. -/
theorem registers_add (s t : State) : registers (s.add t) = (registers s).add (registers t) := rfl

/-- The words of the registers are those of the state. -/
theorem words_registers (s : State) : (registers s).words = s.words.map (·.toBitVec) := rfl

/-- The rotations of a round's first word. -/
theorem toBitVec_bigSigma0 (x : UInt32) :
    (rotateRight x 2 ^^^ rotateRight x 13 ^^^ rotateRight x 22).toBitVec = bigSigma0 x.toBitVec := by
  rw [bigSigma0, ← toBitVec_rotateRight x (by decide) (by decide),
    ← toBitVec_rotateRight x (by decide) (by decide), ← toBitVec_rotateRight x (by decide) (by decide)]
  rfl

/-- The rotations of a round's fifth word. -/
theorem toBitVec_bigSigma1 (x : UInt32) :
    (rotateRight x 6 ^^^ rotateRight x 11 ^^^ rotateRight x 25).toBitVec = bigSigma1 x.toBitVec := by
  rw [bigSigma1, ← toBitVec_rotateRight x (by decide) (by decide),
    ← toBitVec_rotateRight x (by decide) (by decide), ← toBitVec_rotateRight x (by decide) (by decide)]
  rfl

/-- The rotations and the shift of the word fifteen places before. -/
theorem toBitVec_smallSigma0 (x : UInt32) :
    (rotateRight x 7 ^^^ rotateRight x 18 ^^^ (x >>> 3)).toBitVec = smallSigma0 x.toBitVec := by
  rw [smallSigma0, ← toBitVec_rotateRight x (by decide) (by decide),
    ← toBitVec_rotateRight x (by decide) (by decide)]
  rfl

/-- The rotations and the shift of the word two places before. -/
theorem toBitVec_smallSigma1 (x : UInt32) :
    (rotateRight x 17 ^^^ rotateRight x 19 ^^^ (x >>> 10)).toBitVec = smallSigma1 x.toBitVec := by
  rw [smallSigma1, ← toBitVec_rotateRight x (by decide) (by decide),
    ← toBitVec_rotateRight x (by decide) (by decide)]
  rfl

/-- A round takes the sum of its word and its constant. -/
theorem registers_round (s : State) (word constant : UInt32) :
    registers (s.round (word + constant)) =
      (registers s).round constant.toBitVec word.toBitVec := by
  have hchoose : ((s.e &&& s.f) ^^^ ((~~~s.e) &&& s.g)).toBitVec =
      choose s.e.toBitVec s.f.toBitVec s.g.toBitVec := rfl
  have hmajority : ((s.a &&& s.b) ^^^ (s.a &&& s.c) ^^^ (s.b &&& s.c)).toBitVec =
      majority s.a.toBitVec s.b.toBitVec s.c.toBitVec := rfl
  simp only [registers, State.round, Registers.round, UInt32.toBitVec_add, toBitVec_bigSigma0,
    toBitVec_bigSigma1, hchoose, hmajority, Registers.mk.injEq, and_true, true_and]
  constructor <;> ac_rfl

/-! ### The schedule -/

/-- The first sixteen words are those of the block. -/
theorem schedule_of_lt {block : Nat → BitVec 32} {t : Nat} (h : t < 16) :
    schedule block t = block t := by
  rw [schedule, if_pos h]

/-- Every later word follows from four of those before it. -/
theorem schedule_of_ge {block : Nat → BitVec 32} {t : Nat} (h : 16 ≤ t) :
    schedule block t = smallSigma1 (schedule block (t - 2)) + schedule block (t - 7) +
      smallSigma0 (schedule block (t - 15)) + schedule block (t - 16) := by
  rw [schedule, if_neg (Nat.not_lt_of_le h)]

/-- The schedule depends on the sixteen words of the block. -/
theorem schedule_congr {block block' : Nat → BitVec 32} (h : ∀ t < 16, block t = block' t) (t : Nat) :
    schedule block t = schedule block' t := by
  -- the recurrence goes back up to sixteen places
  induction t using Nat.strongRecOn with
  | _ t ih =>
    by_cases ht : t < 16
    · rw [schedule_of_lt ht, schedule_of_lt ht, h t ht]
    · have ht := Nat.le_of_not_lt ht
      rw [schedule_of_ge ht, schedule_of_ge ht, ih _ (by omega), ih _ (by omega), ih _ (by omega),
        ih _ (by omega)]

/-! ### Bytes and words -/

/-- The first byte is the highest digit to the base 256. -/
theorem number_cons (b : UInt8) (bytes : List UInt8) :
    number (b :: bytes) = b.toNat * 256 ^ bytes.length + number bytes := by
  -- what has been read before moves up by all places of the bytes that follow
  have hfrom (n : Nat) (bs : List UInt8) : bs.foldl (fun n b => 256 * n + b.toNat) n =
      n * 256 ^ bs.length + number bs := by
    induction bs generalizing n with
    | nil => simp [number]
    | cons c bs ih =>
      rw [number, List.foldl_cons, List.foldl_cons, ih, ih, List.length_cons, Nat.pow_succ]
      ring
  rw [number, List.foldl_cons, hfrom, Nat.mul_zero, Nat.zero_add]

/-- Bytes denote a number within as many digits to the base 256. -/
theorem number_lt (bytes : List UInt8) : number bytes < 256 ^ bytes.length := by
  induction bytes with
  | nil => decide
  | cons b bytes ih =>
    have hb := b.toNat_lt
    rw [number_cons, List.length_cons, Nat.pow_succ]
    nlinarith

/-- As many bytes that denote the same number are the same. -/
theorem number_inj {bytes bytes' : List UInt8} (hlength : bytes.length = bytes'.length)
    (h : number bytes = number bytes') : bytes = bytes' := by
  induction bytes generalizing bytes' with
  | nil => exact (List.length_eq_zero_iff.1 hlength.symm).symm
  | cons b bytes ih =>
    cases bytes' with
    | nil => exact nomatch hlength
    | cons b' bytes' =>
      have hlength : bytes.length = bytes'.length := Nat.succ.inj hlength
      have hlt := number_lt bytes
      have hlt' := number_lt bytes'
      rw [number_cons, number_cons, hlength] at h
      rw [hlength] at hlt
      -- the first byte is the quotient, the others are the rest
      have hb : b.toNat = b'.toNat := by
        have hpos : 0 < 256 ^ bytes'.length := Nat.pow_pos (by decide)
        have hdiv (n : Nat) {r : Nat} (hr : r < 256 ^ bytes'.length) :
            (n * 256 ^ bytes'.length + r) / 256 ^ bytes'.length = n := by
          rw [Nat.add_comm, Nat.add_mul_div_right _ _ hpos, Nat.div_eq_of_lt hr, Nat.zero_add]
        rw [← hdiv b.toNat hlt, h, hdiv b'.toNat hlt']
      rw [hb] at h
      rw [UInt8.toNat_inj.1 hb, ih hlength (Nat.add_left_cancel h)]

/-- A byte joins the higher digits to the base 256 below them. -/
theorem shiftLeft_or_shiftLeft (n : Nat) {d : Nat} (hd : d < 256) (k : Nat) :
    (n <<< (k + 8)) ||| (d <<< k) = (256 * n + d) <<< k := by
  have hlt : d <<< k < 2 ^ (k + 8) := by
    rw [Nat.shiftLeft_eq, Nat.pow_add, Nat.mul_comm (2 ^ k)]
    exact Nat.mul_lt_mul_of_pos_right hd (Nat.pow_pos (by decide))
  rw [← Nat.shiftLeft_add_eq_or_of_lt hlt, Nat.shiftLeft_eq, Nat.shiftLeft_eq, Nat.shiftLeft_eq,
    Nat.pow_add]
  ring

/-- Four bytes are put together to the word that they denote. -/
theorem toNat_word (a b c d : UInt8) :
    (a.toUInt32 <<< 24 ||| b.toUInt32 <<< 16 ||| c.toUInt32 <<< 8 ||| d.toUInt32).toNat =
      number [a, b, c, d] := by
  have hab := shiftLeft_or_shiftLeft a.toNat b.toNat_lt 16
  have habc := shiftLeft_or_shiftLeft (256 * a.toNat + b.toNat) c.toNat_lt 8
  have habcd := shiftLeft_or_shiftLeft (256 * (256 * a.toNat + b.toNat) + c.toNat) d.toNat_lt 0
  simp only [Nat.shiftLeft_zero, Nat.reduceAdd] at hab habc habcd
  -- a byte is not cut off where it stands in the word
  have hbyte (x : UInt8) {s : Nat} (hs : s ≤ 24) : x.toNat <<< s % 4294967296 = x.toNat <<< s := by
    refine Nat.mod_eq_of_lt (Nat.lt_of_lt_of_le (m := 256 * 2 ^ s) ?_ ?_)
    · rw [Nat.shiftLeft_eq]
      exact Nat.mul_lt_mul_of_pos_right x.toNat_lt (Nat.pow_pos (by decide))
    · exact Nat.le_trans (Nat.mul_le_mul_left 256 (Nat.pow_le_pow_right (by decide) hs)) (by decide)
  simp [hbyte, hab, habc, habcd, number]

/-- Four bytes are put together to the bit vector of the number that they denote. -/
theorem toBitVec_word (a b c d : UInt8) :
    (a.toUInt32 <<< 24 ||| b.toUInt32 <<< 16 ||| c.toUInt32 <<< 8 ||| d.toUInt32).toBitVec =
      BitVec.ofNat 32 (number [a, b, c, d]) := by
  rw [← toNat_word, UInt32.toNat, BitVec.ofNat_toNat, BitVec.setWidth_eq]

/-- The words of whole words of bytes are those at the indices. -/
theorem words_eq (bytes : List UInt8) (n : Nat) (h : bytes.length = 4 * n) :
    (words bytes).map (·.toBitVec) = (List.range n).map (wordAt bytes) := by
  induction n generalizing bytes with
  | zero =>
    obtain rfl := List.length_eq_zero_iff.1 h
    rfl
  | succ n ih =>
    match bytes, h with
    | a :: b :: c :: d :: rest, h =>
      have hrest : rest.length = 4 * n := by simpa [Nat.mul_succ] using h
      rw [words, List.map_cons, ih rest hrest, List.range_succ_eq_map, List.map_cons, List.map_map,
        toBitVec_word]
      refine congrArg _ (List.map_congr_left fun i _ => ?_)
      simp [wordAt, Nat.mul_succ]

/-- Whole words of bytes are known from the words. -/
theorem words_inj {bytes bytes' : List UInt8} (n : Nat) (h : bytes.length = 4 * n)
    (h' : bytes'.length = 4 * n) (hwords : words bytes = words bytes') : bytes = bytes' := by
  induction n generalizing bytes bytes' with
  | zero => rw [List.length_eq_zero_iff.1 h, List.length_eq_zero_iff.1 h']
  | succ n ih =>
    match bytes, bytes', h, h' with
    | a :: b :: c :: d :: rest, a' :: b' :: c' :: d' :: rest', h, h' =>
      have hlength : rest.length = 4 * n := by simpa [Nat.mul_succ] using h
      have hlength' : rest'.length = 4 * n := by simpa [Nat.mul_succ] using h'
      obtain ⟨hfirst, hrest⟩ := List.cons.inj hwords
      have hnumber : number [a, b, c, d] = number [a', b', c', d'] := by
        rw [← toNat_word, ← toNat_word, hfirst]
      have hbytes : [a, b, c, d] = [a', b', c', d'] := number_inj rfl hnumber
      rw [ih hlength hlength' hrest]
      exact congrArg (· ++ rest') hbytes

/-- The bytes of words, the highest of each first, are put together to the words again. -/
theorem words_flatMap (ws : List UInt32) :
    words (ws.flatMap fun w => [24, 16, 8, 0].map fun shift => UInt8.ofNat (w.toNat >>> shift)) = ws := by
  induction ws with
  | nil => rfl
  | cons w ws ih =>
    refine List.cons_eq_cons.2 ⟨UInt32.toNat_inj.1 ?_, ih⟩
    have hw := w.toNat_lt
    rw [toNat_word]
    -- shifted down and cut off, the digits to the base 256 are left
    simp only [number, List.foldl_cons, List.foldl_nil, UInt8.toNat_ofNat', Nat.shiftRight_eq_div_pow]
    omega

/-! ### Blocks -/

/-- Values listed last first, looked up from the end. -/
theorem getD_reverse_range (f : Nat → BitVec 32) {i m : Nat} (h : i < m) :
    (((List.range m).map f).reverse).getD i 0 = f (m - 1 - i) := by
  simp [List.getD_eq_getElem?_getD, h]

/-- The words so far, which stand last first, are continued by the recurrence. -/
theorem extend_eq (block : Nat → BitVec 32) (n : Nat) {m : Nat} (hm : 16 ≤ m) (ws : List UInt32)
    (h : ws.map (·.toBitVec) = ((List.range m).map (schedule block)).reverse) :
    (extend n ws).map (·.toBitVec) = ((List.range (m + n)).map (schedule block)).reverse := by
  induction n generalizing m ws with
  | zero => exact h
  | succ n ih =>
    -- the words are kept last first, so the word `i` places back has the index `i`
    have hword {i : Nat} (hi : i < 16) : (ws.getD i 0).toBitVec = schedule block (m - 1 - i) := by
      rw [← getD_reverse_range (schedule block) (Nat.lt_of_lt_of_le hi hm), ← h]
      exact (List.getD_map ws 0 fun w => w.toBitVec).symm
    rw [extend, Nat.add_succ, ← Nat.succ_add]
    refine ih (Nat.le_succ_of_le hm) _ ?_
    rw [List.map_cons, h, List.range_succ, List.map_append, List.reverse_append]
    refine congrArg (· :: _) ?_
    simp only [UInt32.toBitVec_add, toBitVec_smallSigma0, toBitVec_smallSigma1]
    rw [hword (by decide), hword (by decide), hword (by decide), hword (by decide), schedule_of_ge hm]
    simp only [Nat.sub_sub]
    -- the standard adds the four words in another order
    ac_rfl

/-- The schedule of a block follows the recurrence of the standard. -/
theorem schedule_eq {block : List UInt8} (h : block.length = 64) :
    (Digest.schedule block).map (·.toBitVec) = (List.range 64).map (schedule (wordAt block)) := by
  have hstart : (words block).reverse.map (·.toBitVec) =
      ((List.range 16).map (schedule (wordAt block))).reverse := by
    rw [List.map_reverse, words_eq block 16 h]
    refine congrArg _ (List.map_congr_left fun t ht => ?_)
    rw [schedule_of_lt (List.mem_range.1 ht)]
  rw [Digest.schedule, List.map_reverse, extend_eq _ 48 (Nat.le_refl 16) _ hstart, List.reverse_reverse]

/-- The rounds of words with their constants. -/
theorem registers_foldl (s : State) (ws cs : List UInt32) :
    registers ((List.zipWith (· + ·) ws cs).foldl State.round s) =
      ((ws.map (·.toBitVec)).zip (cs.map (·.toBitVec))).foldl (fun r p => r.round p.2 p.1)
        (registers s) := by
  induction ws generalizing s cs with
  | nil => rfl
  | cons w ws ih =>
    cases cs with
    | nil => rfl
    | cons c cs =>
      rw [List.zipWith_cons_cons, List.foldl_cons, ih, registers_round]
      rfl

/-- A block is compressed as the standard says. -/
theorem registers_compress (s : State) {block : List UInt8} (h : block.length = 64) :
    registers (s.compress block) = (registers s).compress (wordAt block) := by
  have hconstants :
      constants.map (·.toBitVec) = (List.range 64).map fun t => roundConstants.getD t 0 := by
    rw [← map_constants]
    rfl
  rw [State.compress, registers_add, registers_foldl, schedule_eq h, hconstants, List.zip_map',
    List.foldl_map, Registers.compress]

/-- Compressing depends on the sixteen words of the block. -/
theorem compress_congr (s : Registers) {block block' : Nat → BitVec 32}
    (h : ∀ t < 16, block t = block' t) : s.compress block = s.compress block' := by
  rw [Registers.compress, Registers.compress, funext (schedule_congr h)]

/-- The blocks of the bytes are compressed one after another. -/
theorem registers_compressBlocks (n : Nat) (s : State) {bytes : List UInt8}
    (h : bytes.length = 64 * n) :
    registers (compressBlocks n s bytes) =
      (List.range n).foldl (fun r i => r.compress fun t => wordAt bytes (16 * i + t)) (registers s) := by
  induction n generalizing s bytes with
  | zero => rfl
  | succ n ih =>
    have hfirst : (bytes.take 64).length = 64 := by
      rw [List.length_take, h]
      omega
    have hrest : (bytes.drop 64).length = 64 * n := by
      rw [List.length_drop, h]
      omega
    rw [compressBlocks, ih _ hrest, registers_compress s hfirst, List.range_succ_eq_map, List.foldl_cons,
      List.foldl_map]
    -- the first block holds the first sixteen words of all bytes
    have hblock : (registers s).compress (wordAt (bytes.take 64)) =
        (registers s).compress fun t => wordAt bytes (16 * 0 + t) :=
      compress_congr _ fun t ht => by
        rw [wordAt, wordAt, List.drop_take, List.take_take, Nat.min_eq_left (by omega), Nat.mul_zero,
          Nat.zero_add]
    rw [hblock]
    -- in the bytes that are left, every word has moved by one block
    refine congrArg (List.foldl · _ _) (funext fun r => funext fun i => ?_)
    refine congrArg r.compress (funext fun t => ?_)
    rw [wordAt, wordAt, List.drop_drop]
    exact congrArg (fun k => BitVec.ofNat 32 (number ((bytes.drop k).take 4))) (by omega)

/-! ### Digests -/

/-- The eight bytes of a length denote it. -/
theorem number_bigEndian64 (n : Nat) : number (bigEndian64 n) = n % 2 ^ 64 := by
  simp only [bigEndian64, List.map_cons, List.map_nil, number, List.foldl_cons, List.foldl_nil,
    UInt8.toNat_ofNat', Nat.shiftRight_eq_div_pow]
  omega

/-- A message is padded as the standard says. -/
theorem isPadded_pad (message : List UInt8) : IsPadded message (pad message) :=
  -- the zeros fill the block up to its last eight bytes
  ⟨(119 - message.length % 64) % 64, bigEndian64 (8 * message.length), rfl, Nat.mod_lt _ (by decide),
    by omega, rfl, number_bigEndian64 _⟩

/-- A message is padded in one way. -/
theorem eq_of_isPadded {message padded padded' : List UInt8} (h : IsPadded message padded)
    (h' : IsPadded message padded') : padded = padded' := by
  obtain ⟨zeros, length, rfl, hlt, hmod, hlength, hnumber⟩ := h
  obtain ⟨zeros', length', rfl, hlt', hmod', hlength', hnumber'⟩ := h'
  obtain rfl : zeros = zeros' := by omega
  rw [number_inj (hlength.trans hlength'.symm) (hnumber.trans hnumber'.symm)]

/-- The digest of a message is the one of the standard. -/
theorem isDigest_sha256 (message : List UInt8) : IsDigest message (sha256 message) := by
  have hblocks : (pad message).length = 64 * ((pad message).length / 64) := by
    have := size_pad message
    omega
  refine ⟨pad message, registers initial, isPadded_pad message, ?_, length_sha256 message, ?_⟩
  · rw [words_registers, words_initial]
  · rw [← words_eq _ 8 (length_sha256 message), sha256, words_flatMap, ← words_registers,
      registers_compressBlocks _ _ hblocks, Registers.ofBlocks]

/-- A message has one digest. -/
theorem eq_of_isDigest {message digest digest' : List UInt8} (h : IsDigest message digest)
    (h' : IsDigest message digest') : digest = digest' := by
  obtain ⟨padded, ⟨⟩, hpadded, hstart, hlength, hwords⟩ := h
  obtain ⟨padded', ⟨⟩, hpadded', hstart', hlength', hwords'⟩ := h'
  obtain rfl := eq_of_isPadded hpadded hpadded'
  -- both start from the same words, so all registers are the same
  have hsame := hstart.trans hstart'.symm
  simp only [Registers.words, List.cons.injEq, and_true] at hsame
  obtain ⟨rfl, rfl, rfl, rfl, rfl, rfl, rfl, rfl⟩ := hsame
  rw [← hwords', ← words_eq _ 8 hlength, ← words_eq _ 8 hlength'] at hwords
  exact words_inj 8 hlength hlength' ((List.map_inj_right fun _ _ => UInt32.toBitVec_inj.1).1 hwords)

end Standard

/-! ### Digests in hexadecimal -/

/-- The hexadecimal digits, each at the place of its value. -/
def hexDigits : List Char := "0123456789abcdef".toList

/-- Each byte is written as two lower-case hexadecimal digits, the higher one first. -/
inductive IsHex : List UInt8 → List Char → Prop
  | nil : IsHex [] []
  | cons {b : UInt8} {high low : Nat} {c d : Char} {bytes : List UInt8} {text : List Char}
    (value : b.toNat = 16 * high + low) (first : hexDigits[high]? = some c)
    (second : hexDigits[low]? = some d) (rest : IsHex bytes text) : IsHex (b :: bytes) (c :: d :: text)

/-- The text cites the content: it is the digest of the standard in hexadecimal. -/
def IsSha256 (content : ByteArray) (text : String) : Prop :=
  ∃ digest, Standard.IsDigest content.data.toList digest ∧ IsHex digest text.toList

/-- The table has the digits that numbers are written with. -/
theorem hexDigits_eq {n : Nat} (h : n < 16) : hexDigits[n]? = some (Nat.digitChar n) := by
  decide +revert

/-- Bytes are written in hexadecimal in one way. -/
theorem isHex_iff {bytes : List UInt8} {text : List Char} :
    IsHex bytes text ↔ text = (hex bytes).toList := by
  rw [hex, String.toList_ofList]
  induction bytes generalizing text with
  | nil =>
    constructor
    · rintro ⟨⟩
      rfl
    · rintro rfl
      exact .nil
  | cons b bytes ih =>
    have hb := b.toNat_lt
    constructor
    · rintro (_ | @⟨_, high, low, _, _, _, _, hvalue, hfirst, hsecond, hrest⟩)
      -- a byte has one quotient by 16 and one rest
      have hhigh : high < 16 := (List.getElem?_eq_some_iff.1 hfirst).1
      have hlow : low < 16 := (List.getElem?_eq_some_iff.1 hsecond).1
      rw [hexDigits_eq hhigh, Option.some.injEq] at hfirst
      rw [hexDigits_eq hlow, Option.some.injEq] at hsecond
      have hdiv : b.toNat / 16 = high := by omega
      have hmod : b.toNat % 16 = low := by omega
      rw [List.flatMap_cons, ih.1 hrest, hdiv, hmod, ← hfirst, ← hsecond]
      rfl
    · rintro rfl
      exact .cons (by omega) (hexDigits_eq (by omega)) (hexDigits_eq (by omega)) (ih.2 rfl)

/-- A content is cited by its digest and by no other text. -/
theorem isSha256_iff {content : ByteArray} {text : String} :
    IsSha256 content text ↔ text = ofContent content := by
  constructor
  · rintro ⟨digest, hdigest, htext⟩
    have hsame := Standard.eq_of_isDigest hdigest (Standard.isDigest_sha256 _)
    exact String.toList_inj.1 (by rw [isHex_iff.1 htext, hsame, ofContent])
  · rintro rfl
    exact ⟨_, Standard.isDigest_sha256 _, isHex_iff.2 rfl⟩

end ProofSize.Digest
