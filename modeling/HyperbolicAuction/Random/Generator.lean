import HyperbolicAuction.Basic

/-!
# A permuted congruential generator

A seed of any size is hashed into a pool of four 32-bit words, each of which depends on every word
of the seed, and the pool is expanded to the words that a generator starts from. The multiplier that
a word is hashed with changes from word to word. All arithmetic is modulo the word size.

The state of a generator is a 128-bit word that a linear congruence advances. A 64-bit word is drawn
from the state after a step: its halves are combined, and rotated by an amount that its top six bits
give. A 32-bit word is the lower half of a 64-bit word, whose upper half is kept for the next.

Main statement: `choose_lt`, one of so many numbers is below their count, whatever the generator.
-/

namespace HyperbolicAuction.Random

/-! ## Seeds -/

/-- The 32-bit words of a number, least significant first; zero has one. -/
def wordsOf (number : Nat) : List UInt32 :=
  if number < 2 ^ 32 then [UInt32.ofNat number]
  else UInt32.ofNat number :: wordsOf (number / 2 ^ 32)
termination_by number
decreasing_by exact Nat.div_lt_self (by omega) (by decide)

/-- A word with its upper half folded into its lower half. -/
def foldHalves (word : UInt32) : UInt32 := word ^^^ (word >>> 16)

/-- A word hashed with a multiplier, and the multiplier that follows it. -/
def hashWord (factor multiplier word : UInt32) : UInt32 × UInt32 :=
  let following := multiplier * factor
  (foldHalves ((word ^^^ multiplier) * following), following)

/-- Four words, and the multiplier that the next word is hashed with. -/
structure SeedPool where
  words : Vector UInt32 4
  multiplier : UInt32
deriving DecidableEq

namespace SeedPool

/-- The pool before any word. -/
def empty : SeedPool where
  words := Vector.replicate 4 0
  multiplier := 0x43b0d7e5

/-- A hashed word and the pool after it. -/
def hash (pool : SeedPool) (word : UInt32) : UInt32 × SeedPool :=
  let (hashed, multiplier) := hashWord 0x931e8875 pool.multiplier word
  (hashed, { pool with multiplier })

/-- Puts a hashed word in a place of the pool. -/
def fill (pool : SeedPool) (place : Fin 4) (word : UInt32) : SeedPool :=
  let (hashed, pool) := pool.hash word
  { pool with words := pool.words.set place hashed }

/-- Mixes a hashed word into a place of the pool. -/
def stir (pool : SeedPool) (place : Fin 4) (word : UInt32) : SeedPool :=
  let (hashed, pool) := pool.hash word
  let mixed := foldHalves (0xca01f9dd * pool.words[place] - 0x4973f715 * hashed)
  { pool with words := pool.words.set place mixed }

/-- Mixes each place of the pool into all the others. -/
def stirAll (pool : SeedPool) : SeedPool :=
  (List.finRange 4).foldl (fun pool source =>
    (List.finRange 4).foldl (fun pool place =>
      if place = source then pool else pool.stir place pool.words[source]) pool) pool

/-- The pool of a seed: its first four words fill the places, and each later word is mixed into all of
them. -/
def ofSeed (seed : Nat) : SeedPool :=
  let words := wordsOf seed
  let filled := (List.finRange 4).foldl
    (fun pool place => pool.fill place (words[place.val]?.getD 0)) empty
  (words.drop 4).foldl (fun pool word =>
    (List.finRange 4).foldl (fun pool place => pool.stir place word) pool) filled.stirAll

/-- The first eight words that a pool is expanded to. -/
def expand (pool : SeedPool) : List UInt32 :=
  ((List.finRange 8).foldl (fun (expanded, multiplier) index =>
    let word := pool.words.get ⟨index.val % 4, Nat.mod_lt _ (by decide)⟩
    let (hashed, multiplier) := hashWord 0x58f38ded multiplier word
    (expanded ++ [hashed], multiplier)) (([] : List UInt32), 0x8b51f9dd)).1

/-- A number from words, least significant first. -/
def join (words : List UInt32) : Nat :=
  words.foldr (fun word number => word.toNat + 2 ^ 32 * number) 0

end SeedPool

/-! ## Generators -/

/-- The state of a generator. -/
structure Generator where
  state : BitVec 128
  increment : BitVec 128
  /-- The upper half of a word of which the lower half was drawn. -/
  kept : Option (BitVec 32) := none
deriving DecidableEq

namespace Generator

/-- The generator one step on. -/
def step (generator : Generator) : Generator :=
  { generator with
    state := generator.state * 0x2360ED051FC65DA44385DF649FCCF645#128 + generator.increment }

/-- The generator of a seed. -/
def ofSeed (seed : Nat) : Generator :=
  let words := (SeedPool.ofSeed seed).expand
  let wide (at_ : Nat) : BitVec 128 :=
    let half (at_ : Nat) := SeedPool.join ((words.drop at_).take 2)
    BitVec.ofNat 128 (half at_ * 2 ^ 64 + half (at_ + 2))
  let started : Generator := { state := 0, increment := wide 4 * 2 + 1 }
  let stepped := started.step
  { stepped with state := stepped.state + wide 0 }.step

/-! ## Words -/

/-- Draws a 64-bit word. -/
def word64 : StateM Generator (BitVec 64) := do
  modify step
  let state := (← get).state
  let folded : BitVec 64 := state.extractLsb' 64 64 ^^^ state.extractLsb' 0 64
  return folded.rotateRight (state.extractLsb' 122 6).toNat

/-- Draws a 32-bit word. -/
def word32 : StateM Generator (BitVec 32) := do
  match (← get).kept with
  | some half =>
    modify fun generator => { generator with kept := none }
    return half
  | none =>
    let word ← word64
    modify fun generator => { generator with kept := some (word.extractLsb' 32 32) }
    return word.extractLsb' 0 32

/-! ## Bounded draws -/

variable {width : Nat}

/-- Draws words until one is not refused, or as often as is allowed. A refused word would make small
numbers likelier than others. -/
def redraw (word : StateM Generator (BitVec width)) (bound threshold : Nat) :
    Nat → BitVec width → StateM Generator (BitVec width)
  | 0, drawn => pure drawn
  | attempts + 1, drawn =>
    if drawn.toNat * bound % 2 ^ width < threshold then do
      redraw word bound threshold attempts (← word)
    else pure drawn

/-- How often a word is drawn anew; each time it is refused with a chance below one half. -/
def attempts : Nat := 4096

/-- Draws a number below a bound, which is at most the number of words of the width. The words are
cut into as many equal parts as the bound, and the number is that of the part a word is in. -/
def below (word : StateM Generator (BitVec width)) (bound : Nat) : StateM Generator Nat := do
  let drawn ← redraw word bound ((2 ^ width - bound) % bound) attempts (← word)
  return drawn.toNat * bound / 2 ^ width

theorem below_lt (word : StateM Generator (BitVec width)) {bound : Nat} (positive : 0 < bound)
    (generator : Generator) : ((below word bound).run generator).1 < bound := by
  have scaled_lt (drawn : BitVec width) : drawn.toNat * bound / 2 ^ width < bound :=
    Nat.div_lt_of_lt_mul (Nat.mul_lt_mul_of_pos_right drawn.isLt positive)
  exact scaled_lt _

/-- Draws one of so many numbers. A single one takes no word, and few of them take half a word. -/
def choose (count : Nat) : StateM Generator Nat :=
  if count ≤ 1 then pure 0
  else if count ≤ 2 ^ 32 then below word32 count
  else below word64 count

theorem choose_lt {count : Nat} (positive : 0 < count) (generator : Generator) :
    ((choose count).run generator).1 < count := by
  unfold choose
  split
  · exact positive
  · split
    · exact below_lt word32 positive generator
    · exact below_lt word64 positive generator

end Generator

end HyperbolicAuction.Random
