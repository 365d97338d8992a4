import Mathlib.Data.Int.Order.Basic
import Mathlib.Tactic.Ring

/-!
# Object streams

What an `ObjectOutputStream` writes and an `ObjectInputStream` reads, as a sequence of tokens: the
bytes of primitive data and the serialized objects, in the order in which they were written. A
`Token.corrupt` stands for a place at which the bytes are no stream, and carries the exception that
a read which reaches it throws. The readers return the value with the rest of the stream, or the
exception: a primitive read that meets an object or the end fails with an `IOException`, and so does
an object read that meets primitive data.

`writeLong` and `writeInt` emit the bytes of a value, most significant first, where `write` emits
only the lowest one. `readLong_writeLong` and `readInt_writeInt` are the round trips.
-/

namespace NovaBank.Java

/-- The exceptions that the modelled code can throw. -/
inductive JavaException where
  /-- An `IOException`, the end of a stream and a corrupted one included. -/
  | io
  /-- A `ClassNotFoundException`. -/
  | classNotFound
  /-- One of the exceptions that reflective instantiation declares. -/
  | reflective
  | nullPointer
  | classCast
  | negativeArraySize
  | indexOutOfBounds
  | numberFormat
  | noSuchElement
  /-- Any other exception or error that no handler of the modelled code names. -/
  | other
  deriving DecidableEq, Repr

/-- The exceptions that `catch (IOException | ClassNotFoundException e)` handles. -/
def JavaException.isStream : JavaException → Bool
  | .io | .classNotFound => true
  | _ => false

/-- A computation with a further step returns when both do. -/
theorem bind_eq_ok {α β : Type} {x : Except JavaException α} {f : α → Except JavaException β} {b : β}
    (h : (x >>= f) = .ok b) : ∃ a, x = .ok a ∧ f a = .ok b := by
  cases x with
  | error e => cases h
  | ok a => exact ⟨a, rfl, h⟩

/-- A computation throws when every continuation of its first step does. -/
theorem exists_error_bind {α β : Type} {x : Except JavaException α}
    {f : α → Except JavaException β} (h : ∀ a, x = .ok a → ∃ e, f a = .error e) :
    ∃ e, x >>= f = .error e := by
  cases x with
  | error e => exact ⟨e, rfl⟩
  | ok a => exact h a rfl

/-- A computation over a list returns when every step does, and then the list of its values. -/
theorem mapM_eq_ok {α β : Type} {f : α → Except JavaException β} {g : α → β} {l : List α}
    {ys : List β} (h : l.mapM f = .ok ys) (hg : ∀ x y, x ∈ l → f x = .ok y → g x = y) :
    ys = l.map g := by
  -- On the list, with the result of the first element first.
  induction l generalizing ys with
  | nil =>
    cases h
    rfl
  | cons x l ih =>
    rw [List.mapM_cons] at h
    obtain ⟨y, hy, h⟩ := bind_eq_ok h
    obtain ⟨ys', hys', h⟩ := bind_eq_ok h
    cases h
    rw [List.map_cons, hg x y List.mem_cons_self hy,
      ih hys' fun x' y' hx' => hg x' y' (List.mem_cons_of_mem x hx')]

/-- Every step of it returned. -/
theorem ok_of_mapM {α β : Type} {f : α → Except JavaException β} {l : List α} {ys : List β}
    (h : l.mapM f = .ok ys) : ∀ x ∈ l, ∃ y, f x = .ok y := by
  induction l generalizing ys with
  | nil => exact fun x hx => absurd hx List.not_mem_nil
  | cons x l ih =>
    rw [List.mapM_cons] at h
    obtain ⟨y, hy, h⟩ := bind_eq_ok h
    obtain ⟨ys', hys', -⟩ := bind_eq_ok h
    intro x' hx'
    rcases List.mem_cons.mp hx' with rfl | hx'
    · exact ⟨y, hy⟩
    · exact ih hys' x' hx'

/-- A computation over a list throws what one of its steps throws. -/
theorem exists_error_of_mapM {α β : Type} {f : α → Except JavaException β} {l : List α}
    {e : JavaException} (h : l.mapM f = .error e) : ∃ x ∈ l, f x = .error e := by
  induction l with
  | nil => cases h
  | cons x l ih =>
    rw [List.mapM_cons] at h
    -- The first error ends the loop.
    cases hx : f x with
    | error e' =>
      rw [hx] at h
      cases h
      exact ⟨x, List.mem_cons_self, hx⟩
    | ok y =>
      rw [hx] at h
      cases hl : l.mapM f with
      | error e' =>
        rw [hl] at h
        cases h
        obtain ⟨x', hx', he⟩ := ih hl
        exact ⟨x', List.mem_cons_of_mem x hx', he⟩
      | ok ys =>
        rw [hl] at h
        cases h

/-- A loop whose steps all succeed collects their results. -/
theorem mapM_of_ok {α β : Type} {f : α → Except JavaException β} {g : α → β} {l : List α}
    (h : ∀ x ∈ l, f x = .ok (g x)) : l.mapM f = .ok (l.map g) := by
  induction l with
  | nil => rfl
  | cons x l ih =>
    rw [List.mapM_cons, h x List.mem_cons_self, ih fun y hy => h y (List.mem_cons_of_mem x hy)]
    rfl

/-- A mapped computation returns when the computation does. -/
theorem map_eq_ok {α β : Type} {x : Except JavaException α} {f : α → β} {b : β}
    (h : x.map f = .ok b) : ∃ a, x = .ok a ∧ f a = b := by
  cases x with
  | error e => cases h
  | ok a => exact ⟨a, rfl, Except.ok.inj h⟩

/-- One element of an object stream. -/
inductive Token (α : Type) where
  /-- A byte of primitive data. -/
  | byte (b : UInt8)
  /-- A serialized object. -/
  | object (o : α)
  /-- A place that cannot be read. -/
  | corrupt (e : JavaException)
  deriving DecidableEq

/-- An object stream, or what is left of one. -/
abbrev ObjectStream (α : Type) := List (Token α)

variable {α : Type}

/-- `readObject`. -/
def readObject : ObjectStream α → Except JavaException (α × ObjectStream α)
  | .object o :: s => .ok (o, s)
  | .corrupt e :: _ => .error e
  | _ => .error .io

/-- `readFully` into an array of `n` bytes. -/
def readFully : ℕ → ObjectStream α → Except JavaException (List UInt8 × ObjectStream α)
  | 0, s => .ok ([], s)
  | n + 1, .byte b :: s => (readFully n s).map fun r => (b :: r.1, r.2)
  | _ + 1, .corrupt e :: _ => .error e
  | _ + 1, _ => .error .io

/-- The `k` bytes of a number, most significant first. -/
def toBytes : ℕ → ℕ → List UInt8
  | 0, _ => []
  | k + 1, n => toBytes k (n / 256) ++ [UInt8.ofNat n]

/-- The number that bytes denote, most significant first. -/
def ofBytes (bs : List UInt8) : ℕ := bs.foldl (fun n b => 256 * n + b.toNat) 0

/-- `readLong`. -/
def readLong (s : ObjectStream α) : Except JavaException (Int64 × ObjectStream α) :=
  (readFully 8 s).map fun r => (Int64.ofBitVec (BitVec.ofNat 64 (ofBytes r.1)), r.2)

/-- `readInt`. -/
def readInt (s : ObjectStream α) : Except JavaException (Int32 × ObjectStream α) :=
  (readFully 4 s).map fun r => (Int32.ofBitVec (BitVec.ofNat 32 (ofBytes r.1)), r.2)

/-- `write(byte[])`. -/
def writeBytes (bs : List UInt8) : ObjectStream α := bs.map .byte

/-- `writeLong`. -/
def writeLong (v : Int64) : ObjectStream α := writeBytes (toBytes 8 v.toBitVec.toNat)

/-- `writeInt`. -/
def writeInt (v : Int32) : ObjectStream α := writeBytes (toBytes 4 v.toBitVec.toNat)

/-- `write(int)`, which emits the lowest byte only. -/
def write (v : Int32) : ObjectStream α := [.byte (UInt8.ofNat v.toBitVec.toNat)]

/-! ## The round trips -/

/-- A number is written in as many bytes as it is given. -/
@[simp] theorem length_toBytes (k n : ℕ) : (toBytes k n).length = k := by
  induction k generalizing n with
  | zero => rfl
  | succ k ih => simp [toBytes, ih]

/-- `k` bytes carry a number modulo `256^k`. -/
theorem ofBytes_toBytes (k n : ℕ) : ofBytes (toBytes k n) = n % 256^k := by
  induction k generalizing n with
  | zero => simp [toBytes, ofBytes, Nat.mod_one]
  | succ k ih =>
    have ih' := ih (n / 256)
    unfold ofBytes at ih' ⊢
    rw [toBytes, List.foldl_append, ih', List.foldl_cons, List.foldl_nil, UInt8.toNat_ofNat']
    rw [show (2 : ℕ)^8 = 256 by norm_num, pow_succ', Nat.mod_mul, add_comm]

/-- The bytes written are the bytes read. -/
@[simp] theorem readFully_writeBytes (bs : List UInt8) (s : ObjectStream α) :
    readFully bs.length (writeBytes bs ++ s) = .ok (bs, s) := by
  induction bs with
  | nil => rfl
  | cons b bs ih =>
    have ih' : readFully bs.length (bs.map Token.byte ++ s) = .ok (bs, s) := ih
    simp only [writeBytes, List.map_cons, List.cons_append, List.length_cons, readFully, ih']
    rfl

/-- The `k` bytes of a number of at most `k` bytes are read as that number. -/
theorem readFully_toBytes {k n : ℕ} (hn : n < 256^k) (s : ObjectStream α) :
    readFully k (writeBytes (toBytes k n) ++ s) = .ok (toBytes k n, s) ∧
      ofBytes (toBytes k n) = n := by
  constructor
  · have h := readFully_writeBytes (toBytes k n) s
    rwa [length_toBytes] at h
  · rw [ofBytes_toBytes, Nat.mod_eq_of_lt hn]

/-- `readLong` reads back what `writeLong` wrote. -/
@[simp] theorem readLong_writeLong (v : Int64) (s : ObjectStream α) :
    readLong (writeLong v ++ s) = .ok (v, s) := by
  obtain ⟨hread, hv⟩ := readFully_toBytes (k := 8) v.toBitVec.isLt s
  unfold readLong writeLong
  rw [hread]
  simp [Except.map, hv]

/-- `readInt` reads back what `writeInt` wrote. -/
@[simp] theorem readInt_writeInt (v : Int32) (s : ObjectStream α) :
    readInt (writeInt v ++ s) = .ok (v, s) := by
  obtain ⟨hread, hv⟩ := readFully_toBytes (k := 4) v.toBitVec.isLt s
  unfold readInt writeInt
  rw [hread]
  simp [Except.map, hv]

end NovaBank.Java
