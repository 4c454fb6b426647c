/-!
The BLAKE3 hash of a byte string, 32 bytes long.

A message is cut into chunks of 1024 bytes and a chunk into blocks of 64. Every chunk and every
inner vertex of the tree over the chunks is a `Vertex`: one last compression that has not been
run yet. Running it with the root flag gives the digest, running it without gives the chaining
value that the parent consumes, so the flag is decided only once the tree is complete. Levels are
joined pairwise from the left and an odd last vertex moves up unchanged; the left subtree of every
parent then covers the largest power of two of chunks that leaves something for the right one.
-/

set_option autoImplicit false

namespace VoteGossip.Digest.Blake3

abbrev Chain := Vector UInt32 8

/-- A block read as words, and also the working state of a compression. -/
abbrev Words := Vector UInt32 16

def initialChain : Chain :=
  #v[0x6A09E667, 0xBB67AE85, 0x3C6EF372, 0xA54FF53A,
     0x510E527F, 0x9B05688C, 0x1F83D9AB, 0x5BE0CD19]

/-- The word of one round's message that each place of the next round's message takes. -/
def schedule : Vector (Fin 16) 16 :=
  #v[2, 6, 3, 10, 7, 0, 4, 13, 1, 11, 12, 5, 9, 14, 15, 8]

namespace Flag

def chunkStart : UInt32 := 1
def chunkEnd : UInt32 := 2
def parent : UInt32 := 4
def root : UInt32 := 8

end Flag

def rotateRight (word amount : UInt32) : UInt32 :=
  (word >>> amount) ||| (word <<< (32 - amount))

@[inline] def mix (state : Words) (a b c d : Fin 16) (first second : UInt32) : Words :=
  let wa := state[a] + state[b] + first
  let wd := rotateRight (state[d] ^^^ wa) 16
  let wc := state[c] + wd
  let wb := rotateRight (state[b] ^^^ wc) 12
  let wa := wa + wb + second
  let wd := rotateRight (wd ^^^ wa) 8
  let wc := wc + wd
  let wb := rotateRight (wb ^^^ wc) 7
  (((state.set a wa).set b wb).set c wc).set d wd

def round (state message : Words) : Words :=
  let state := mix state 0 4 8 12 message[0] message[1]
  let state := mix state 1 5 9 13 message[2] message[3]
  let state := mix state 2 6 10 14 message[4] message[5]
  let state := mix state 3 7 11 15 message[6] message[7]
  let state := mix state 0 5 10 15 message[8] message[9]
  let state := mix state 1 6 11 12 message[10] message[11]
  let state := mix state 2 7 8 13 message[12] message[13]
  mix state 3 4 9 14 message[14] message[15]

/-- A number of rounds, the message permuted between any two of them. -/
def rounds : Nat → Words → Words → Words
  | 0, state, _ => state
  | count + 1, state, message =>
      rounds count (round state message) (schedule.map fun place => message[place])

def roundCount : Nat := 7

structure Vertex where
  chain : Chain
  message : Words
  counter : UInt64
  length : UInt32
  flags : UInt32

def Vertex.compress (vertex : Vertex) (extra : UInt32) : Chain :=
  let start : Words :=
    #v[vertex.chain[0], vertex.chain[1], vertex.chain[2], vertex.chain[3],
       vertex.chain[4], vertex.chain[5], vertex.chain[6], vertex.chain[7],
       initialChain[0], initialChain[1], initialChain[2], initialChain[3],
       vertex.counter.toUInt32, (vertex.counter >>> 32).toUInt32,
       vertex.length, vertex.flags ||| extra]
  let state := rounds roundCount start vertex.message
  #v[state[0] ^^^ state[8], state[1] ^^^ state[9], state[2] ^^^ state[10],
     state[3] ^^^ state[11], state[4] ^^^ state[12], state[5] ^^^ state[13],
     state[6] ^^^ state[14], state[7] ^^^ state[15]]

def Vertex.value (vertex : Vertex) : Chain := vertex.compress 0

def parentOf (left right : Chain) : Vertex :=
  { chain := initialChain
    message := left ++ right
    counter := 0
    length := 64
    flags := Flag.parent }

/-- Four bytes, the lowest first. Bytes past the end count as zero. -/
def word (bytes : List UInt8) : UInt32 :=
  match bytes with
  | [] => 0
  | [a] => a.toUInt32
  | [a, b] => a.toUInt32 ||| (b.toUInt32 <<< 8)
  | [a, b, c] => a.toUInt32 ||| (b.toUInt32 <<< 8) ||| (c.toUInt32 <<< 16)
  | a :: b :: c :: d :: _ =>
      a.toUInt32 ||| (b.toUInt32 <<< 8) ||| (c.toUInt32 <<< 16) ||| (d.toUInt32 <<< 24)

def fillWords : Nat → List UInt8 → Words → Words
  | 0, _, words => words
  | count + 1, bytes, words =>
      fillWords count (bytes.drop 4)
        (words.setIfInBounds (15 - count) (word bytes))

def blockWords (block : List UInt8) : Words :=
  fillWords 16 block (Vector.replicate 16 0)

/-- `count` consecutive pieces of `size` elements; only the last may be shorter. -/
def pieces {α : Type} (size : Nat) : Nat → List α → List (List α)
  | 0, _ => []
  | count + 1, items => items.take size :: pieces size count (items.drop size)

/-- The number of pieces of `size` elements that a string of this length takes. An empty string
still takes one. -/
def pieceCount (size length : Nat) : Nat :=
  max 1 ((length + size - 1) / size)

def absorb (counter : UInt64) : Chain → UInt32 → List (List UInt8) → Vertex
  | chain, flags, [] =>
      { chain, message := blockWords [], counter, length := 0, flags := flags ||| Flag.chunkEnd }
  | chain, flags, [last] =>
      { chain, message := blockWords last, counter, length := last.length.toUInt32,
        flags := flags ||| Flag.chunkEnd }
  | chain, flags, block :: rest =>
      let vertex : Vertex := { chain, message := blockWords block, counter, length := 64, flags }
      absorb counter vertex.value 0 rest

def chunkVertex (counter : UInt64) (chunk : List UInt8) : Vertex :=
  absorb counter initialChain Flag.chunkStart (pieces 64 (pieceCount 64 chunk.length) chunk)

def chunkVertices : UInt64 → List (List UInt8) → List Vertex
  | _, [] => []
  | counter, chunk :: rest => chunkVertex counter chunk :: chunkVertices (counter + 1) rest

def joinPairs : List Vertex → List Vertex
  | left :: right :: rest => parentOf left.value right.value :: joinPairs rest
  | rest => rest

/-- Joins level after level until one vertex is left. Every level halves the list, so any number
of levels from its length on is enough. -/
def joinLevels : Nat → List Vertex → List Vertex
  | 0, level => level
  | count + 1, level =>
      match level with
      | [] => []
      | [top] => [top]
      | _ => joinLevels count (joinPairs level)

def top (message : List UInt8) : Vertex :=
  let chunks := pieces 1024 (pieceCount 1024 message.length) message
  let leaves := chunkVertices 0 chunks
  (joinLevels leaves.length leaves).headD (chunkVertex 0 [])

def wordBytes (word : UInt32) : Vector UInt8 4 :=
  #v[word.toUInt8, (word >>> 8).toUInt8, (word >>> 16).toUInt8, (word >>> 24).toUInt8]

def hash (message : List UInt8) : Vector UInt8 32 :=
  ((top message).compress Flag.root).flatMap wordBytes

end VoteGossip.Digest.Blake3
