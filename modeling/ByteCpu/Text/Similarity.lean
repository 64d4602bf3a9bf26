/-!
The Jaro similarity of two texts and the test that it is at least 7/10, in exact arithmetic. It
tells a misspelt name from an unrelated one.
-/

set_option autoImplicit false

namespace ByteCpu.Text.Similarity

structure Slot where
  char : Char
  taken : Bool := false
  deriving DecidableEq, Repr

/-- Takes the first free slot with `c` whose index is between `low` and `high`; `j` is the index
of the first slot given. -/
def claim (c : Char) (low high : Nat) : Nat → List Slot → Option (List Slot)
  | _, [] => none
  | j, s :: ss =>
    if low ≤ j && j ≤ high && s.char == c && !s.taken then some ({ s with taken := true } :: ss)
    else (claim c low high (j + 1) ss).map (s :: ·)

/-- The characters that find a slot at most `reach` places away, in order, and the slots after
that; `i` is the index of the first character given. -/
def pairUp (reach : Nat) : Nat → List Char → List Slot → List Char × List Slot
  | _, [], ss => ([], ss)
  | i, c :: cs, ss =>
    match claim c (i - reach) (i + reach) 0 ss with
    | none => pairUp reach (i + 1) cs ss
    | some ss' =>
      let (matched, rest) := pairUp reach (i + 1) cs ss'
      (c :: matched, rest)

/-- With `m` matched characters and `t` half transpositions the similarity is the mean of `m/|a|`,
`m/|b|` and `(m - t)/m`; the test is cleared of its denominators. -/
def resembles (a b : List Char) : Bool :=
  let reach := max a.length b.length / 2 - 1
  let (matched, slots) := pairUp reach 0 a (b.map fun c => { char := c })
  let taken := (slots.filter (·.taken)).map (·.char)
  let m := matched.length
  let t := ((matched.zip taken).filter fun p => p.1 != p.2).length / 2
  m != 0 && 21 * (a.length * b.length * m) ≤
    10 * (m * m * b.length + m * m * a.length + (m - t) * (a.length * b.length))

example : resembles "rum".toList "run".toList = true := by decide
example : resembles "file".toList "run".toList = false := by decide

end ByteCpu.Text.Similarity
