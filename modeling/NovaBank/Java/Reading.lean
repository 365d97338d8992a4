import Mathlib.Data.List.Induction
import NovaBank.Java.Stream

/-!
# What is read has been written

The converse of the round trips of `Java/Stream.lean`: a reader that returns a value has found at the
front of the stream just what the writer emits for that value, and leaves what follows.
-/

namespace NovaBank.Java

variable {α : Type}

/-- The number of some bytes and one more, which is the least significant. -/
theorem ofBytes_concat (bs : List UInt8) (b : UInt8) :
    ofBytes (bs ++ [b]) = 256 * ofBytes bs + b.toNat := by
  rw [ofBytes, List.foldl_append]
  rfl

/-- The number of `k` bytes is below `256^k`. -/
theorem ofBytes_lt (bs : List UInt8) : ofBytes bs < 256^bs.length := by
  induction bs using List.reverseRecOn with
  | nil => decide
  | append_singleton bs b ih =>
    have hb := b.toNat_lt
    rw [ofBytes_concat, List.length_append, List.length_singleton, pow_succ]
    omega

/-- Bytes are the bytes of the number that they denote. -/
theorem toBytes_ofBytes (bs : List UInt8) : toBytes bs.length (ofBytes bs) = bs := by
  induction bs using List.reverseRecOn with
  | nil => rfl
  | append_singleton bs b ih =>
    have hb : b.toNat < 256 := b.toNat_lt
    have hdiv : (256 * ofBytes bs + b.toNat) / 256 = ofBytes bs := by omega
    have hlast : UInt8.ofNat (256 * ofBytes bs + b.toNat) = b := by
      apply UInt8.toNat_inj.mp
      rw [UInt8.toNat_ofNat']
      omega
    rw [ofBytes_concat, List.length_append, List.length_singleton, toBytes, hdiv, hlast, ih]

/-- `readObject` succeeds exactly on a stream that begins with an object. -/
theorem readObject_eq_ok_iff {s t : ObjectStream α} {o : α} :
    readObject s = .ok (o, t) ↔ s = .object o :: t := by
  constructor
  · intro h
    rcases s with _ | ⟨_ | o' | e, s⟩
    · cases h
    · cases h
    · cases h
      rfl
    · cases h
  · rintro rfl
    rfl

/-- What `readFully` reads has been written. -/
theorem readFully_eq_ok_iff {n : ℕ} {s t : ObjectStream α} {bs : List UInt8} :
    readFully n s = .ok (bs, t) ↔ bs.length = n ∧ s = writeBytes bs ++ t := by
  constructor
  · intro h
    -- On the number of bytes, each of which must be a byte of the stream.
    induction n generalizing s bs with
    | zero =>
      cases h
      exact ⟨rfl, rfl⟩
    | succ n ih =>
      rcases s with _ | ⟨b | o | e, s⟩
      · cases h
      · obtain ⟨⟨bs', t'⟩, hrest, hpair⟩ := map_eq_ok h
        cases hpair
        obtain ⟨hlength, rfl⟩ := ih hrest
        exact ⟨congrArg (· + 1) hlength, rfl⟩
      · cases h
      · cases h
  · rintro ⟨rfl, rfl⟩
    exact readFully_writeBytes bs t

/-- The bytes that are read are those of the number that they denote. -/
theorem readFully_ofBytes {k : ℕ} {s t : ObjectStream α} {bs : List UInt8}
    (h : readFully k s = .ok (bs, t)) :
    ofBytes bs < 256^k ∧ s = writeBytes (toBytes k (ofBytes bs)) ++ t := by
  obtain ⟨rfl, rfl⟩ := readFully_eq_ok_iff.mp h
  rw [toBytes_ofBytes]
  exact ⟨ofBytes_lt bs, rfl⟩

/-- `readLong` succeeds exactly on a stream that begins with what `writeLong` writes. -/
theorem readLong_eq_ok_iff {s t : ObjectStream α} {v : Int64} :
    readLong s = .ok (v, t) ↔ s = writeLong v ++ t := by
  constructor
  · intro h
    obtain ⟨⟨bs, t'⟩, hread, hpair⟩ := map_eq_ok h
    cases hpair
    obtain ⟨hlt, rfl⟩ := readFully_ofBytes hread
    have hword : ofBytes bs % 2^64 = ofBytes bs := Nat.mod_eq_of_lt hlt
    dsimp only
    rw [writeLong, Int64.toBitVec_ofBitVec, BitVec.toNat_ofNat, hword]
  · rintro rfl
    exact readLong_writeLong v t

/-- `readInt` succeeds exactly on a stream that begins with what `writeInt` writes. -/
theorem readInt_eq_ok_iff {s t : ObjectStream α} {v : Int32} :
    readInt s = .ok (v, t) ↔ s = writeInt v ++ t := by
  constructor
  · intro h
    obtain ⟨⟨bs, t'⟩, hread, hpair⟩ := map_eq_ok h
    cases hpair
    obtain ⟨hlt, rfl⟩ := readFully_ofBytes hread
    have hword : ofBytes bs % 2^32 = ofBytes bs := Nat.mod_eq_of_lt hlt
    dsimp only
    rw [writeInt, Int32.toBitVec_ofBitVec, BitVec.toNat_ofNat, hword]
  · rintro rfl
    exact readInt_writeInt v t

end NovaBank.Java
