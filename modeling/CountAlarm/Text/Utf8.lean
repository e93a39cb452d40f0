/-!
# Reading bytes as UTF-8

`nextChunk` splits the longest well-formed or ill-formed start off a byte string. From it come the
strict reading, which refuses ill-formed bytes, and the lossy one, which puts one replacement
character for each maximal ill-formed part.
-/

namespace CountAlarm.Text.Utf8

/-- A character, or a maximal part of the bytes that starts no character. -/
inductive Chunk where
  | char (c : Char)
  | illFormed
deriving DecidableEq, Repr

def isContinuation (b : UInt8) : Bool :=
  decide (0x80 ≤ b) && decide (b ≤ 0xBF)

/-- The least and the greatest second byte after a first byte of a longer character. -/
def secondRange (first : UInt8) : UInt8 × UInt8 :=
  if first == 0xE0 then (0xA0, 0xBF)
  else if first == 0xED then (0x80, 0x9F)
  else if first == 0xF0 then (0x90, 0xBF)
  else if first == 0xF4 then (0x80, 0x8F)
  else (0x80, 0xBF)

/-- How many bytes a character with this first byte has; none for bytes that start no character. -/
def lengthOf (first : UInt8) : Option Nat :=
  if first < 0x80 then some 1
  else if first < 0xC2 then none
  else if first < 0xE0 then some 2
  else if first < 0xF0 then some 3
  else if first < 0xF5 then some 4
  else none

def payload (b : UInt8) : Nat :=
  b.toNat % 64

/-- Splits the first chunk off. What follows it is shorter than the whole. -/
def nextChunk (first : UInt8) (rest : List UInt8) : Chunk × List UInt8 :=
  match lengthOf first, rest with
  | none, _ => (.illFormed, rest)
  | some 1, _ => (.char (Char.ofNat first.toNat), rest)
  | some _, [] => (.illFormed, rest)
  | some n, b :: bs =>
    let (low, high) := secondRange first
    if b < low || high < b then (.illFormed, rest)
    else if n = 2 then (.char (Char.ofNat (first.toNat % 32 * 64 + payload b)), bs)
    else match bs with
      | [] => (.illFormed, bs)
      | c :: cs =>
        if !isContinuation c then (.illFormed, bs)
        else if n = 3 then
          (.char (Char.ofNat ((first.toNat % 16 * 64 + payload b) * 64 + payload c)), cs)
        else match cs with
          | [] => (.illFormed, cs)
          | d :: ds =>
            if !isContinuation d then (.illFormed, cs)
            else
              (.char (Char.ofNat
                (((first.toNat % 8 * 64 + payload b) * 64 + payload c) * 64 + payload d)), ds)

theorem length_nextChunk_le (first : UInt8) (rest : List UInt8) :
    (nextChunk first rest).2.length ≤ rest.length := by
  unfold nextChunk
  repeat' split
  all_goals simp only [List.length_cons, Nat.le_refl]
  all_goals omega

def chunks : List UInt8 → List Chunk
  | [] => []
  | first :: rest =>
    have := length_nextChunk_le first rest
    (nextChunk first rest).1 :: chunks (nextChunk first rest).2
termination_by bytes => bytes.length
decreasing_by simp only [List.length_cons]; omega

/-- The characters of well-formed bytes, and nothing for others. -/
def decode? (bytes : List UInt8) : Option (List Char) :=
  (chunks bytes).mapM fun
    | .char c => some c
    | .illFormed => none

/-- The characters of any bytes, with one replacement character for each ill-formed part. -/
def decodeLossy (bytes : List UInt8) : List Char :=
  (chunks bytes).map fun
    | .char c => c
    | .illFormed => '\uFFFD'

def encode (text : String) : List UInt8 :=
  text.toByteArray.data.toList

end CountAlarm.Text.Utf8
