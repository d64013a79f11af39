import RecordSchema.Text.Basic

/-!
# Digests

BLAKE2b with 32 bytes of output and no key. A text is absorbed in blocks of 128 bytes, the last one
filled with zeros. Each block mixes the eight words of the chain in twelve rounds.
-/

namespace RecordSchema.Digest

abbrev Chain := Vector UInt64 8

abbrev Work := Vector UInt64 16

/-- The start of the chain before the parameters are mixed in. -/
def seed : Chain :=
  #v[0x6a09e667f3bcc908, 0xbb67ae8584caa73b, 0x3c6ef372fe94f82b, 0xa54ff53a5f1d36f1,
    0x510e527fade682d1, 0x9b05688c2b3e6c1f, 0x1f83d9abfb41bd6b, 0x5be0cd19137e2179]

/-- The order in which each round takes the words of a block. -/
def schedule : Vector (Vector (Fin 16) 16) 10 :=
  #v[#v[0, 1, 2, 3, 4, 5, 6, 7, 8, 9, 10, 11, 12, 13, 14, 15],
    #v[14, 10, 4, 8, 9, 15, 13, 6, 1, 12, 0, 2, 11, 7, 5, 3],
    #v[11, 8, 12, 0, 5, 2, 15, 13, 10, 14, 3, 6, 7, 1, 9, 4],
    #v[7, 9, 3, 1, 13, 12, 11, 14, 2, 6, 5, 10, 4, 0, 15, 8],
    #v[9, 0, 5, 7, 2, 4, 10, 15, 14, 1, 11, 12, 6, 8, 3, 13],
    #v[2, 12, 6, 10, 0, 11, 8, 3, 4, 13, 7, 5, 15, 14, 1, 9],
    #v[12, 5, 1, 15, 14, 13, 4, 10, 0, 7, 6, 3, 9, 2, 8, 11],
    #v[13, 11, 7, 14, 12, 1, 3, 9, 5, 0, 15, 4, 8, 6, 2, 10],
    #v[6, 15, 14, 9, 11, 3, 0, 8, 12, 2, 13, 7, 1, 4, 10, 5],
    #v[10, 2, 8, 4, 7, 6, 1, 5, 15, 11, 9, 14, 3, 12, 13, 0]]

/-- The four words that each of the eight mixing steps of a round works on: columns, then
diagonals. -/
def lanes : List (Fin 16 × Fin 16 × Fin 16 × Fin 16) :=
  [(0, 4, 8, 12), (1, 5, 9, 13), (2, 6, 10, 14), (3, 7, 11, 15),
    (0, 5, 10, 15), (1, 6, 11, 12), (2, 7, 8, 13), (3, 4, 9, 14)]

def rotateRight (w : UInt64) (n : UInt64) : UInt64 := (w >>> n) ||| (w <<< (64 - n))

/-- Mixes two words of the block into four words of the work. -/
def mix (v : Work) (lane : Fin 16 × Fin 16 × Fin 16 × Fin 16) (x y : UInt64) : Work :=
  let (i, j, k, l) := lane
  let a := v.get i + v.get j + x
  let d := rotateRight (v.get l ^^^ a) 32
  let c := v.get k + d
  let b := rotateRight (v.get j ^^^ c) 24
  let a := a + b + y
  let d := rotateRight (d ^^^ a) 16
  let c := c + d
  let b := rotateRight (b ^^^ c) 63
  (((v.set i.val a).set j.val b).set k.val c).set l.val d

/-- One round over a block, with its words in the given order. -/
def round (block : Work) (v : Work) (order : Vector (Fin 16) 16) : Work :=
  let words := order.toList.map block.get
  lanes.zipIdx.foldl (fun v (lane, i) =>
    mix v lane (words.getD (2 * i) 0) (words.getD (2 * i + 1) 0)) v

/-- The word of some bytes, the low one first. -/
def word (bytes : Text) : UInt64 := bytes.foldr (fun b w => w <<< 8 ||| b.toUInt64) 0

/-- The bytes of a word, the low one first. -/
def wordBytes (w : UInt64) : Text :=
  (List.range 8).map fun i => (w >>> (8 * i).toUInt64).toUInt8

/-- The words of a block, filled with zeros. -/
def blockWords (bytes : Text) : Work :=
  Vector.ofFn fun i => word ((bytes.drop (8 * i.val)).take 8)

/-- Takes a block into the chain, `count` being the number of bytes so far. -/
def compress (h : Chain) (bytes : Text) (count : Nat) (last : Bool) : Chain :=
  let block := blockWords bytes
  let low : UInt64 := count.toUInt64
  let high : UInt64 := (count / Nat.pow 2 64).toUInt64
  let v : Work := h ++ seed
  let v := v.set 12 (v.get 12 ^^^ low)
  let v := v.set 13 (v.get 13 ^^^ high)
  let v := if last then v.set 14 (~~~ v.get 14) else v
  let orders := schedule.toList ++ schedule.toList.take 2
  let v := orders.foldl (round block) v
  Vector.ofFn fun i => h.get i ^^^ v[i.val] ^^^ v[i.val + 8]

/-- Takes a text into the chain after `count` bytes. -/
def absorb (h : Chain) (count : Nat) (t : Text) : Chain :=
  if (t.drop 128).isEmpty then compress h t (count + t.length) true
  else absorb (compress h (t.take 128) (count + 128) false) (count + 128) (t.drop 128)
termination_by t.length
decreasing_by
  rename_i h
  simp only [List.isEmpty_iff, List.drop_eq_nil_iff] at h
  simp only [List.length_drop]
  omega

/-- The chain before the first block, for 32 bytes of output. -/
def start : Chain := seed.set 0 (seed.get 0 ^^^ 0x01010020)

/-- The digest of a text in hexadecimal. -/
def ofText (t : Text) : Text :=
  Text.toHex (((absorb start 0 t).toList.take 4).flatMap wordBytes)

end RecordSchema.Digest
