namespace PhraseGrammar

/-- Where random words come from when no more are pending: zeros for ever, or the words that belong
to a seed. -/
inductive WordSource where
  | zeros
  | seeded (seed : UInt64)
deriving DecidableEq

namespace WordSource

/-- Mixes the bits of a word, one word to one word, so that neighbours come to lie far apart. -/
def scramble (word : UInt64) : UInt64 :=
  let word := (word ^^^ word >>> 30) * 0xBF58476D1CE4E5B9
  let word := (word ^^^ word >>> 27) * 0x94D049BB133111EB
  word ^^^ word >>> 31

/-- The next word and the source of the words after it. A seed gives the high half of its scrambled
form, and the seeds that follow one another stand in an arithmetic progression. -/
def next : WordSource → UInt32 × WordSource
  | .zeros => (0, .zeros)
  | .seeded seed => ((scramble seed >>> 32).toUInt32, .seeded (seed + 0x9E3779B97F4A7C15))

end WordSource

/-- A supply of random words that hands out the pending ones in order, and then those of its source.
It counts the words that were drawn. -/
structure Tape where
  pending : List UInt32
  source : WordSource
  drawn : Nat
deriving DecidableEq

namespace Tape

/-- The given words, and zeros after them. -/
def ofWords (words : List UInt32) : Tape :=
  ⟨words, .zeros, 0⟩

/-- The tape that belongs to a seed and a number. -/
def ofSeed (seed : UInt64) (number : Nat) : Tape :=
  ⟨[], .seeded (WordSource.scramble (seed + number.toUInt64)), 0⟩

/-- The member of a list of `count` that a word stands for: its number is to `count` as the word to
the number of all words. -/
def share (count : Nat) (word : UInt32) : Nat :=
  word.toNat * count / UInt32.size

/-- The greatest low half of a product for which a word is taken as a choice among `count`. Up to
it, each choice has the same number of words. -/
def zone (count : Nat) : Nat :=
  (count <<< (31 - count.log2)) - 1

/-- Draws pending words until one can be taken as a choice among `count`. When none is left, the
next word of the source is taken as it is; a zero could always be taken. -/
def pickFrom (count : Nat) (source : WordSource) : List UInt32 → Nat → Nat × Tape
  | [], drawn => (share count source.next.1, ⟨[], source.next.2, drawn + 1⟩)
  | word :: pending, drawn =>
    if word.toNat * count % UInt32.size ≤ zone count then
      (share count word, ⟨pending, source, drawn + 1⟩)
    else pickFrom count source pending (drawn + 1)

/-- A random member of a list. From an empty list nothing is picked and no word is drawn. -/
def choose? {α : Type} (options : List α) (tape : Tape) : Option (α × Tape) :=
  if options.isEmpty then none
  else
    let picked := pickFrom options.length tape.source tape.pending tape.drawn
    options[picked.1]?.map (·, picked.2)

end Tape

end PhraseGrammar
