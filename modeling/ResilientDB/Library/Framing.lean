import Mathlib.Algebra.Ring.Nat
import Mathlib.Data.List.Basic

namespace ResilientDB.Library
open List Option

abbrev Bytes := List UInt8

variable {payload rest : Bytes}

def encodeLE : Nat → Nat → Bytes
  | 0, _ => []
  | width + 1, n => UInt8.ofNat n :: encodeLE width (n / 256)

def decodeLE : Bytes → Nat
  | [] => 0
  | byte :: more => byte.toNat + 256 * decodeLE more

@[simp] theorem length_encodeLE (width n : Nat) : (encodeLE width n).length = width := by
  induction width generalizing n with
  | zero => rfl
  | succ width ih => simp [encodeLE, ih]

theorem decodeLE_encodeLE (width n : Nat) (fits : n < 256 ^ width) : decodeLE (encodeLE width n) = n := by
  induction width generalizing n with
  | zero =>
    simp only [pow_zero, Nat.lt_one_iff] at fits
    rw [fits]
    rfl
  | succ width ih =>
    have smaller : n / 256 < 256 ^ width := Nat.div_lt_of_lt_mul (by rwa [pow_succ, mul_comm] at fits)
    have byte : (UInt8.ofNat n).toNat = n % 256 := UInt8.toNat_ofNat'
    rw [encodeLE, decodeLE, ih _ smaller, byte]
    omega

def takeExact (count : Nat) (bytes : Bytes) : Option (Bytes × Bytes) :=
  if bytes.length < count then none else some (bytes.take count, bytes.drop count)

theorem takeExact_append (bytes rest : Bytes) : takeExact bytes.length (bytes ++ rest) = some (bytes, rest) := by
  simp [takeExact]

theorem takeExact_short {count : Nat} {bytes : Bytes} (short : bytes.length < count) : takeExact count bytes = none :=
  if_pos short

def frame (payload : Bytes) : Bytes := encodeLE 8 payload.length ++ payload

def readFrame (bytes : Bytes) : Option (Bytes × Bytes) :=
  (takeExact 8 bytes).bind fun read => takeExact (decodeLE read.1) read.2

@[simp] theorem length_frame (payload : Bytes) : (frame payload).length = 8 + payload.length := by simp [frame]

theorem takeExact_length (count : Nat) (rest : Bytes) :
    takeExact 8 (encodeLE 8 count ++ rest) = some (encodeLE 8 count, rest) := by
  have whole := takeExact_append (encodeLE 8 count) rest
  rwa [length_encodeLE] at whole

theorem readFrame_frame (small : payload.length < 2 ^ 64) :
    readFrame (frame payload ++ rest) = some (payload, rest) := by
  unfold readFrame frame
  rw [append_assoc, takeExact_length, Option.bind_some, decodeLE_encodeLE 8 _ (by omega)]
  exact takeExact_append payload rest

theorem readFrame_torn (small : payload.length < 2 ^ 64) {cut : Nat} (torn : cut < (frame payload).length) :
    readFrame ((frame payload).take cut) = none := by
  rw [length_frame] at torn
  unfold readFrame
  by_cases inside : cut < 8
  · rw [takeExact_short (by simp; omega)]
    rfl
  · have split : (frame payload).take cut = encodeLE 8 payload.length ++ payload.take (cut - 8) := by
      unfold frame
      rw [take_append, length_encodeLE, take_of_length_le (by simp; omega)]
    rw [split, takeExact_length, Option.bind_some, decodeLE_encodeLE 8 _ (by omega)]
    exact takeExact_short (by simp; omega)

def frames (payloads : List Bytes) : Bytes := payloads.flatMap frame

@[simp] theorem frames_nil : frames [] = [] := rfl

@[simp] theorem frames_cons (payload : Bytes) (more : List Bytes) :
    frames (payload :: more) = frame payload ++ frames more := flatMap_cons

@[simp] theorem frames_append (payloads more : List Bytes) :
    frames (payloads ++ more) = frames payloads ++ frames more := flatMap_append

theorem frames_header {buffer : Bytes} {payloads : List Bytes} (split : buffer ++ rest = frames payloads)
    (full : buffer.length = 8) :
    ∃ payload more, payloads = payload :: more ∧ buffer = encodeLE 8 payload.length ∧
      rest = payload ++ frames more := by
  cases payloads with
  | nil =>
    have short := congrArg List.length split
    rw [length_append, frames_nil, length_nil] at short
    omega
  | cons payload more =>
    rw [frames_cons, frame, append_assoc] at split
    obtain ⟨header, body⟩ := append_inj split (by rw [full, length_encodeLE])
    exact ⟨payload, more, rfl, header, body⟩

theorem frames_length {payloads : List Bytes} {size : Nat} (split : encodeLE 8 size ++ rest = frames payloads)
    (fits : size < 2 ^ 64) (small : ∀ payload ∈ payloads, payload.length < 2 ^ 64) :
    ∃ payload more, payloads = payload :: more ∧ payload.length = size ∧ rest = payload ++ frames more := by
  obtain ⟨payload, more, rfl, header, body⟩ := frames_header split (length_encodeLE 8 size)
  have sizes := congrArg decodeLE header
  rw [decodeLE_encodeLE 8 size (by omega),
    decodeLE_encodeLE 8 _ (by have := small payload mem_cons_self; omega)] at sizes
  exact ⟨payload, more, rfl, sizes.symm, body⟩

theorem frames_body {buffer : Bytes} {payloads : List Bytes}
    (split : encodeLE 8 buffer.length ++ (buffer ++ rest) = frames payloads) (fits : buffer.length < 2 ^ 64)
    (small : ∀ payload ∈ payloads, payload.length < 2 ^ 64) :
    ∃ more, payloads = buffer :: more ∧ rest = frames more := by
  obtain ⟨payload, more, rfl, size, body⟩ := frames_length split fits small
  obtain ⟨rfl, tail⟩ := append_inj body size.symm
  exact ⟨more, rfl, tail⟩

structure PrefixCode (α : Type*) where
  encode : α → Bytes
  decode : Bytes → Option (α × Bytes)
  decode_encode : ∀ value rest, decode (encode value ++ rest) = some (value, rest)

namespace PrefixCode

variable {α β : Type*}

def prod (first : PrefixCode α) (second : PrefixCode β) : PrefixCode (α × β) where
  encode value := first.encode value.1 ++ second.encode value.2
  decode bytes := (first.decode bytes).bind fun front => (second.decode front.2).map fun back =>
    ((front.1, back.1), back.2)
  decode_encode value rest := by
    rw [append_assoc, first.decode_encode, bind_some, second.decode_encode, map_some]

def along (code : PrefixCode α) (view : β → α) (build : α → β) (inverse : ∀ value, build (view value) = value) :
    PrefixCode β where
  encode value := code.encode (view value)
  decode bytes := (code.decode bytes).map fun read => (build read.1, read.2)
  decode_encode value rest := by rw [code.decode_encode, map_some, inverse]

def decodeNat : Bytes → Option (Nat × Bytes)
  | [] => none
  | byte :: rest => if byte = 0 then some (0, rest) else (decodeNat rest).map fun read => (read.1 + 1, read.2)

theorem decodeNat_replicate (n : Nat) (rest : Bytes) :
    decodeNat (List.replicate n 1 ++ 0 :: rest) = some (n, rest) := by
  induction n with
  | zero => rfl
  | succ n ih =>
    rw [replicate_succ, cons_append, decodeNat, if_neg (by decide), ih, map_some]

def nat : PrefixCode Nat where
  encode n := List.replicate n 1 ++ [0]
  decode := decodeNat
  decode_encode n rest := by rw [append_assoc, singleton_append, decodeNat_replicate]

def int : PrefixCode Int :=
  (nat.prod nat).along (fun n => (n.toNat, (-n).toNat)) (fun p => p.1 - p.2) fun n => by
    dsimp only
    omega

def bool : PrefixCode Bool := nat.along (fun b => if b then 1 else 0) (fun n => n = 1) fun b => by cases b <;> rfl

def decodeList (code : PrefixCode α) : Nat → Bytes → Option (List α × Bytes)
  | 0, bytes => some ([], bytes)
  | count + 1, bytes => (code.decode bytes).bind fun front => (decodeList code count front.2).map fun back =>
    (front.1 :: back.1, back.2)

theorem decodeList_flatMap (code : PrefixCode α) (values : List α) (rest : Bytes) :
    code.decodeList values.length (values.flatMap code.encode ++ rest) = some (values, rest) := by
  induction values with
  | nil => rfl
  | cons value values ih =>
    rw [flatMap_cons, append_assoc, length_cons, decodeList, code.decode_encode, bind_some, ih, map_some]

def list (code : PrefixCode α) : PrefixCode (List α) where
  encode values := nat.encode values.length ++ values.flatMap code.encode
  decode bytes := (nat.decode bytes).bind fun count => code.decodeList count.1 count.2
  decode_encode values rest := by
    rw [append_assoc, nat.decode_encode, bind_some, decodeList_flatMap]

def option (code : PrefixCode α) : PrefixCode (Option α) :=
  code.list.along Option.toList List.head? fun value => by cases value <;> rfl

def char : PrefixCode Char where
  encode c := encodeLE 4 c.toNat
  decode bytes := (takeExact 4 bytes).map fun read => (Char.ofNat (decodeLE read.1), read.2)
  decode_encode c rest := by
    have bound : c.toNat < 256 ^ 4 := lt_of_lt_of_le c.val.toNat_lt (by decide)
    have whole := takeExact_append (encodeLE 4 c.toNat) rest
    rw [length_encodeLE] at whole
    rw [whole, map_some, decodeLE_encodeLE 4 _ bound, Char.ofNat_toNat]

def string : PrefixCode String := char.list.along String.toList String.ofList fun _ => String.ofList_toList

def parse (code : PrefixCode α) (bytes : Bytes) : Option α :=
  (code.decode bytes).bind fun read => if read.2 = [] then some read.1 else none

theorem parse_encode (code : PrefixCode α) (value : α) : code.parse (code.encode value) = some value := by
  have decoded := code.decode_encode value []
  rw [append_nil] at decoded
  rw [parse, decoded, bind_some, if_pos rfl]

end PrefixCode

end ResilientDB.Library
