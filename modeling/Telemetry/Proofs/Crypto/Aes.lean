import Mathlib.Data.List.Induction
import Telemetry.Crypto.Aes
import Telemetry.Proofs.Bytes
/-!
# Decryption undoes encryption

Every step of a round has an inverse. The substitution is checked byte by byte. The mixing of a
column is linear, so that its inverse need only be checked for columns with a single byte.
-/

namespace Telemetry.Crypto.Aes

/-! ## Bytes -/

/-- What is said of all bytes can be checked. -/
instance decidableForallByte {p : UInt8 → Prop} [DecidablePred p] : Decidable (∀ a, p a) :=
  decidable_of_iff (∀ n : Fin 256, p (UInt8.ofNat n))
    ⟨fun h a => by simpa using h ⟨a.toNat, a.toNat_lt⟩, fun h n => h _⟩

theorem unsubstitute_substitute : ∀ a, unsubstitute (substitute a) = a := by decide +kernel

theorem top_bit : ∀ a : UInt8, a &&& 0x80 = 0 ∨ a &&& 0x80 = 0x80 := by decide +kernel

theorem timesX_xor (a b : UInt8) : timesX (a ^^^ b) = timesX a ^^^ timesX b := by
  have split : (a ^^^ b) &&& 0x80 = (a &&& 0x80) ^^^ (b &&& 0x80) := by
    apply UInt8.toBitVec_inj.mp
    ext i
    simp [Bool.and_xor_distrib_right]
  have carry : (if (a ^^^ b) &&& 0x80 = 0 then 0 else 0x1b : UInt8) =
      (if a &&& 0x80 = 0 then 0 else 0x1b) ^^^ (if b &&& 0x80 = 0 then 0 else 0x1b) := by
    rw [split]
    rcases top_bit a with ha | ha <;> rcases top_bit b with hb | hb <;> rw [ha, hb] <;> decide
  unfold timesX
  rw [carry, UInt8.shiftLeft_xor]
  ac_rfl

theorem times_xor (a b factor : UInt8) : times (a ^^^ b) factor = times a factor ^^^ times b factor := by
  have choose (p : Prop) [Decidable p] (x y : UInt8) :
      (if p then 0 else x ^^^ y) = (if p then 0 else x) ^^^ (if p then 0 else y) := by
    split <;> simp
  simp only [times, timesX_xor, choose]
  ac_rfl

/-- What the byte of one row brings to another one, `p` to `s` and `p'` to `s'` being the
coefficients on the way there and back. -/
def share (a p q r s p' q' r' s' : UInt8) : UInt8 :=
  times (times a p) p' ^^^ times (times a q) q' ^^^ times (times a r) r' ^^^ times (times a s) s'

/-- A byte comes back to its own row. -/
theorem share_own : ∀ a, share a 2 1 1 3 14 11 13 9 = a := by decide +kernel

/-- Nothing of it comes to the other rows. -/
theorem share_other : ∀ a, share a 3 2 1 1 14 11 13 9 = 0 ∧ share a 1 3 2 1 14 11 13 9 = 0 ∧
    share a 1 1 3 2 14 11 13 9 = 0 := by decide +kernel

theorem unmix_row (a b c d : UInt8) :
    times (times a 2 ^^^ times b 3 ^^^ times c 1 ^^^ times d 1) 14 ^^^
      times (times a 1 ^^^ times b 2 ^^^ times c 3 ^^^ times d 1) 11 ^^^
      times (times a 1 ^^^ times b 1 ^^^ times c 2 ^^^ times d 3) 13 ^^^
      times (times a 3 ^^^ times b 1 ^^^ times c 1 ^^^ times d 2) 9 = a := by
  -- by linearity each byte takes its own way there and back
  calc _ = share a 2 1 1 3 14 11 13 9 ^^^ share b 3 2 1 1 14 11 13 9 ^^^
        share c 1 3 2 1 14 11 13 9 ^^^ share d 1 1 3 2 14 11 13 9 := by
          simp only [share, times_xor]
          ac_rfl
    _ = a := by
      rw [share_own, (share_other b).1, (share_other c).2.1, (share_other d).2.2]
      simp

/-- Unmixing undoes the mixing of a column. -/
theorem unmixColumn_mixColumn {column : Bytes} (long : column.length = 4) :
    mixColumn 14 11 13 9 (mixColumn 2 3 1 1 column) = column := by
  match column, long with
  | [a, b, c, d], _ =>
    have row0 := unmix_row a b c d
    have row1 := unmix_row b c d a
    have row2 := unmix_row c d a b
    have row3 := unmix_row d a b c
    simp only [mixColumn, List.cons.injEq, and_true]
    refine ⟨row0, ?_, ?_, ?_⟩
    · refine Eq.trans ?_ row1
      ac_rfl
    · refine Eq.trans ?_ row2
      ac_rfl
    · refine Eq.trans ?_ row3
      ac_rfl

/-! ## Blocks -/

variable {block key : Bytes}

theorem length_mixColumn (p q r s : UInt8) {column : Bytes} (long : column.length = 4) :
    (mixColumn p q r s column).length = 4 := by
  match column, long with
  | [a, b, c, d], _ => rfl

theorem length_mixColumns (long : block.length = 16) : (mixColumns block).length = 16 := by
  have each : ∀ column ∈ Bytes.pieces 4 4 block, (mixColumn 2 3 1 1 column).length = 4 :=
    fun column member => length_mixColumn _ _ _ _ (Bytes.length_of_mem_pieces (by omega) member)
  rw [mixColumns, List.length_flatMap, List.map_congr_left each, List.map_const',
    Bytes.length_pieces, List.sum_replicate_nat]

theorem unmixColumns_mixColumns (long : block.length = 16) :
    unmixColumns (mixColumns block) = block := by
  have each : ∀ column ∈ Bytes.pieces 4 4 block, column.length = 4 :=
    fun column member => Bytes.length_of_mem_pieces (by omega) member
  have apart : Bytes.pieces 4 4 (mixColumns block) =
      (Bytes.pieces 4 4 block).map (mixColumn 2 3 1 1) := by
    have mixed : ∀ column ∈ (Bytes.pieces 4 4 block).map (mixColumn 2 3 1 1), column.length = 4 := by
      simpa using fun column member => length_mixColumn 2 3 1 1 (each column member)
    simpa [mixColumns, List.flatMap] using Bytes.pieces_flatten mixed
  have back : ((Bytes.pieces 4 4 block).map (mixColumn 2 3 1 1)).map (mixColumn 14 11 13 9) =
      Bytes.pieces 4 4 block := by
    have undone : ∀ column ∈ Bytes.pieces 4 4 block,
        (mixColumn 14 11 13 9 ∘ mixColumn 2 3 1 1) column = id column :=
      fun column member => unmixColumn_mixColumn (each column member)
    rw [List.map_map, List.map_congr_left undone, List.map_id]
  rw [unmixColumns, apart, List.flatMap, back]
  exact Bytes.flatten_pieces (by omega)

theorem length_shiftRows (block : Bytes) : (shiftRows block).length = block.length := by
  unfold shiftRows
  split <;> rfl

theorem unshiftRows_shiftRows (long : block.length = 16) : unshiftRows (shiftRows block) = block := by
  match block, long with
  | [_, _, _, _, _, _, _, _, _, _, _, _, _, _, _, _], _ => rfl

def scramble (block : Bytes) : Bytes := shiftRows (block.map substitute)

theorem length_scramble (block : Bytes) : (scramble block).length = block.length := by
  rw [scramble, length_shiftRows, List.length_map]

theorem unscramble (long : block.length = 16) :
    (unshiftRows (scramble block)).map unsubstitute = block := by
  have substituted : (block.map substitute).length = 16 := by rw [List.length_map, long]
  have undone : ∀ byte ∈ block, (unsubstitute ∘ substitute) byte = id byte :=
    fun byte _ => by rw [Function.comp_apply, unsubstitute_substitute, id]
  rw [scramble, unshiftRows_shiftRows substituted, List.map_map, List.map_congr_left undone,
    List.map_id]

/-! ## Rounds -/

def mixingRound (block key : Bytes) : Bytes := Bytes.xor (mixColumns (scramble block)) key

theorem length_mixingRound (long : block.length = 16) (keyLong : key.length = 16) :
    (mixingRound block key).length = 16 := by
  have scrambled : (scramble block).length = 16 := by rw [length_scramble, long]
  exact Bytes.length_xor_of_eq (length_mixColumns scrambled) keyLong

theorem length_foldl_mixingRound {keys : List Bytes} (long : block.length = 16)
    (keysLong : ∀ key ∈ keys, key.length = 16) : (keys.foldl mixingRound block).length = 16 := by
  induction keys generalizing block with
  | nil => exact long
  | cons key rest ih =>
    obtain ⟨first, others⟩ := List.forall_mem_cons.mp keysLong
    exact ih (length_mixingRound long first) others

theorem encryptRounds_append (keys : List Bytes) (key block : Bytes) :
    encryptRounds (keys ++ [key]) block =
      Bytes.xor (scramble (keys.foldl mixingRound block)) key := by
  induction keys generalizing block with
  | nil => rfl
  | cons first rest ih =>
    have more : rest ++ [key] ≠ [] := by simp
    have step : encryptRounds (first :: (rest ++ [key])) block =
        encryptRounds (rest ++ [key]) (mixingRound block first) := by
      cases h : rest ++ [key] with
      | nil => exact absurd h more
      | cons => rfl
    rw [List.cons_append, step, ih]
    rfl

/-- The rounds of decryption take off the rounds of encryption, last one first. -/
theorem decryptRounds_reverse {keys : List Bytes} (long : block.length = 16)
    (keysLong : ∀ key ∈ keys, key.length = 16) (first : Bytes) :
    decryptRounds (keys.reverse ++ [first]) (scramble (keys.foldl mixingRound block)) =
      Bytes.xor block first := by
  -- the round that was done last is taken off first, so that the keys are taken from behind
  induction keys using List.reverseRec with
  | nil => exact congrArg (Bytes.xor · first) (unscramble long)
  | append_singleton keys key ih =>
    have others : ∀ key ∈ keys, key.length = 16 := fun key member => keysLong key (by simp [member])
    have keyLong : key.length = 16 := keysLong key (by simp)
    have before := length_foldl_mixingRound long others
    have after := length_mixingRound before keyLong
    have mixed : (mixColumns (scramble (keys.foldl mixingRound block))).length = 16 :=
      length_mixColumns (by rw [length_scramble, before])
    have step (state : Bytes) : decryptRounds (key :: (keys.reverse ++ [first])) state =
        decryptRounds (keys.reverse ++ [first])
          (unmixColumns (Bytes.xor ((unshiftRows state).map unsubstitute) key)) := by
      cases h : keys.reverse ++ [first] with
      | nil => simp at h
      | cons => rfl
    rw [List.reverse_append, List.reverse_singleton, List.singleton_append, List.cons_append, step,
      List.foldl_append, List.foldl_cons, List.foldl_nil, unscramble after, mixingRound,
      Bytes.xor_xor (by omega), unmixColumns_mixColumns (by rw [length_scramble, before]),
      ih others]

/-- Decryption undoes encryption. -/
theorem decryptBlock_encryptBlock {keys : List Bytes} (long : block.length = 16)
    (keysLong : ∀ key ∈ keys, key.length = 16) :
    decryptBlock keys (encryptBlock keys block) = block := by
  cases keys with
  | nil => rfl
  | cons first keys =>
    obtain ⟨firstLong, others⟩ := List.forall_mem_cons.mp keysLong
    have masked := Bytes.length_xor_of_eq long firstLong
    rcases List.eq_nil_or_concat keys with rfl | ⟨middle, last, rfl⟩
    · exact Bytes.xor_xor (by omega)
    · rw [List.concat_eq_append] at others ⊢
      have middleLong : ∀ key ∈ middle, key.length = 16 :=
        fun key member => others key (by simp [member])
      have scrambled := length_foldl_mixingRound masked middleLong
      have lastLong : last.length = 16 := others last (by simp)
      have reversed : (first :: (middle ++ [last])).reverse = last :: (middle.reverse ++ [first]) := by
        simp
      rw [encryptBlock, encryptRounds_append, decryptBlock, reversed]
      dsimp only
      rw [Bytes.xor_xor (by rw [length_scramble]; omega), decryptRounds_reverse masked middleLong,
        Bytes.xor_xor (by omega)]

theorem length_encryptBlock {keys : List Bytes} (long : block.length = 16)
    (keysLong : ∀ key ∈ keys, key.length = 16) : (encryptBlock keys block).length = 16 := by
  cases keys with
  | nil => exact long
  | cons first keys =>
    obtain ⟨firstLong, others⟩ := List.forall_mem_cons.mp keysLong
    have masked := Bytes.length_xor_of_eq long firstLong
    rcases List.eq_nil_or_concat keys with rfl | ⟨middle, last, rfl⟩
    · exact masked
    · rw [List.concat_eq_append] at others ⊢
      have lastLong : last.length = 16 := others last (by simp)
      have scrambled := length_foldl_mixingRound masked
        fun key member => others key (List.mem_append_left _ member)
      rw [encryptBlock, encryptRounds_append]
      exact Bytes.length_xor_of_eq ((length_scramble _).trans scrambled) lastLong

/-! ## Round keys -/

/-- The schedule adds whole words. -/
theorem extend_words {width : Nat} (some : 0 < width) (count index : Nat) (constant : UInt8)
    {words : List Bytes} (enough : width ≤ words.length) (long : ∀ word ∈ words, word.length = 4) :
    (extend width count index constant words).length = words.length + count ∧
      ∀ word ∈ extend width count index constant words, word.length = 4 := by
  induction count generalizing index constant words with
  | zero => exact ⟨rfl, long⟩
  | succ count ih =>
    have last : (words.headD []).length = 4 := by
      cases words with
      | nil => simp at enough; omega
      | cons word rest => exact long word (by simp)
    have base : (words.getD (width - 1) []).length = 4 := by
      have inside : width - 1 < words.length := by omega
      rw [List.getD_eq_getElem?_getD, List.getElem?_eq_getElem inside]
      exact long _ (List.getElem_mem inside)
    have add (word : Bytes) (next : UInt8) (wordLong : word.length = 4) :
        (extend width count (index + 1) next (word :: words)).length =
            words.length + (count + 1) ∧
          ∀ other ∈ extend width count (index + 1) next (word :: words), other.length = 4 := by
      have more : width ≤ (word :: words).length := Nat.le_succ_of_le enough
      obtain ⟨total, whole⟩ := ih (index + 1) next more
        (List.forall_mem_cons.mpr ⟨wordLong, long⟩)
      rw [List.length_cons] at total
      exact ⟨by omega, whole⟩
    have both {word : Bytes} (wordLong : word.length = 4) :
        (Bytes.xor (words.getD (width - 1) []) word).length = 4 :=
      Bytes.length_xor_of_eq base wordLong
    have turned : ((words.headD []).drop 1 ++ (words.headD []).take 1).length = 4 := by
      rw [List.length_append, List.length_drop, List.length_take, last]
      rfl
    rw [extend]
    split
    · refine add _ _ (both (Bytes.length_xor_of_eq ?_ rfl))
      rw [List.length_map, turned]
    · split
      · exact add _ _ (both (by rw [List.length_map, last]))
      · exact add _ _ (both last)

theorem length_of_mem_roundKeys {key roundKey : Bytes} (h : key.length = 16 ∨ key.length = 32)
    (member : roundKey ∈ roundKeys key) : roundKey.length = 16 := by
  have some : 0 < key.length / 4 := by omega
  have whole : 4 * (key.length / 4) = key.length := by omega
  have first : ∀ word ∈ (Bytes.pieces 4 (key.length / 4) key).reverse, word.length = 4 :=
    fun word inside =>
      Bytes.length_of_mem_pieces (Nat.le_of_eq whole) (List.mem_reverse.mp inside)
  obtain ⟨count, words⟩ := extend_words some (4 * (key.length / 4 + 7) - key.length / 4)
    (key.length / 4) 1 (by simp) first
  rw [List.length_reverse, Bytes.length_pieces] at count
  refine Bytes.length_of_mem_pieces ?_ member
  rw [List.length_flatten, List.map_congr_left (g := fun _ => 4) (by simpa using words),
    List.map_const', List.sum_replicate_nat, List.length_reverse, count]
  omega

end Telemetry.Crypto.Aes
