/-!
# Glob patterns

A pattern is matched against a text byte by byte. A star stands for any bytes of one segment, two
stars for any number of segments, a question mark for one byte, brackets for one byte of a class and
braces for one of several alternatives; segments are separated by a solidus, a reversed solidus
takes away the meaning of the byte after it, and exclamation marks in front negate the whole.

The matcher walks through both and goes back to the last star when a byte does not fit, and inside
of braces to the next alternative. `step` is one round of this walk. As the walk is determined by
its `Walk`, one that takes more rounds than there are walks does not end; `roundLimit` is beyond
that number, and a walk that does not end is answered with false.
-/

namespace CountAlarm.Glob

abbrev Bytes := Array UInt8

/-! ## Bytes with a meaning -/

def star : UInt8 := 0x2A
def question : UInt8 := 0x3F
def solidus : UInt8 := 0x2F
def backslash : UInt8 := 0x5C
def leftBracket : UInt8 := 0x5B
def rightBracket : UInt8 := 0x5D
def leftBrace : UInt8 := 0x7B
def rightBrace : UInt8 := 0x7D
def comma : UInt8 := 0x2C
def caret : UInt8 := 0x5E
def exclamation : UInt8 := 0x21
def hyphen : UInt8 := 0x2D

/-! ## Walks -/

structure Place where
  glob : Nat
  text : Nat
deriving DecidableEq, Repr

def Place.origin : Place :=
  ⟨0, 0⟩

/-- Where the walk is, and where it goes back to: after the last star, and after the last pair of
stars. A text index of zero says that there was none. -/
structure Position where
  here : Place
  wild : Place
  globstar : Place
deriving DecidableEq, Repr

/-- A position, the positions before the open braces, innermost first, and the text index that the
longest alternative has reached. -/
structure Walk where
  position : Position
  braces : List Position
  longest : Nat
deriving DecidableEq, Repr

/-- How deep braces may nest. -/
def braceLimit : Nat :=
  10

inductive Round where
  | go (walk : Walk)
  | finished (isMatch : Bool)

/-! ## Parts of a round -/

/-- The byte that a byte after a reversed solidus stands for. -/
def escapedByte (b : UInt8) : UInt8 :=
  if b = 0x61 then 0x61
  else if b = 0x62 then 0x08
  else if b = 0x6E then 0x0A
  else if b = 0x72 then 0x0D
  else if b = 0x74 then 0x09
  else b

/-- The byte at an index of the pattern and the index of its last byte. A reversed solidus at the
end of the pattern has no meaning. -/
def literal? (glob : Bytes) (g : Nat) (b : UInt8) : Option (UInt8 × Nat) :=
  if b = backslash then (glob[g + 1]?).map fun next => (escapedByte next, g + 1)
  else some (b, g)

/-- Tells whether a solidus and two stars follow the two stars at an index. -/
def repeatsGlobstar (glob : Bytes) (g : Nat) : Bool :=
  glob[g + 2]? == some solidus && glob[g + 3]? == some star && glob[g + 4]? == some star

/-- Moves from a pair of stars to the last of the pairs that follow it directly. -/
def lastGlobstar (glob : Bytes) : Nat → Nat → Nat
  | 0, g => g
  | steps + 1, g => if repeatsGlobstar glob g then lastGlobstar glob steps (g + 3) else g

/-- The items of a class: whether one of them holds the byte, and the index after the items. The
first item may be a closing bracket. -/
def classItems? (glob : Bytes) (byte : UInt8) :
    Nat → Bool → Bool → Nat → Option (Bool × Nat)
  | 0, _, found, g => some (found, g)
  | steps + 1, isFirst, found, g =>
    match glob[g]? with
    | none => some (found, g)
    | some b =>
      if !isFirst && b == rightBracket then some (found, g)
      else do
        let (low, g) ← literal? glob g b
        let g := g + 1
        match glob[g]?, glob[g + 1]? with
        | some dash, some next =>
          if dash == hyphen && next != rightBracket then do
            let (high, g) ← literal? glob (g + 1) next
            classItems? glob byte steps false (found || (low ≤ byte && byte ≤ high)) (g + 1)
          else classItems? glob byte steps false (found || low == byte) g
        | _, _ => classItems? glob byte steps false (found || low == byte) g

/-- Whether a class holds a byte, and the index after its closing bracket. The index given is that
after the opening bracket. -/
def classHolds? (glob : Bytes) (byte : UInt8) (g : Nat) : Option (Bool × Nat) := do
  let negated := glob[g]? == some caret || glob[g]? == some exclamation
  let start := if negated then g + 1 else g
  let (found, g) ← classItems? glob byte (glob.size + 1) true false start
  if g < glob.size then some (found != negated, g + 1) else none

/-- What a search for the end of the innermost braces comes to. -/
inductive BraceEnd where
  | unclosed
  | atComma
  | closed
deriving DecidableEq

/-- Looks for the end of braces, or for the next alternative if `stop` is set, and returns the index
after it. `depth` counts the braces that are open and `inClass` tells whether brackets are. -/
def skipBraces (glob : Bytes) (stop : Bool) : Nat → Nat → Bool → Nat → BraceEnd × Nat
  | 0, depth, _, g => (if depth = 0 then .closed else .unclosed, g)
  | steps + 1, depth, inClass, g =>
    match glob[g]? with
    | none => (if depth = 0 then .closed else .unclosed, g)
    | some b =>
      if depth = 0 then (.closed, g)
      else if b = backslash then skipBraces glob stop steps depth inClass (g + 2)
      else if b = rightBracket then skipBraces glob stop steps depth false (g + 1)
      else if inClass then skipBraces glob stop steps depth inClass (g + 1)
      else if b = leftBrace then skipBraces glob stop steps (depth + 1) inClass (g + 1)
      else if b = rightBrace then skipBraces glob stop steps (depth - 1) inClass (g + 1)
      else if b = comma ∧ stop ∧ depth = 1 then (.atComma, g + 1)
      else if b = leftBracket then skipBraces glob stop steps depth true (g + 1)
      else if b = star ∧ glob[g + 1]? = some star then
        skipBraces glob stop steps depth inClass (lastGlobstar glob glob.size g + 2)
      else skipBraces glob stop steps depth inClass (g + 1)

def braceEnd (glob : Bytes) (stop : Bool) (g : Nat) : BraceEnd × Nat :=
  skipBraces glob stop (glob.size + 1) 1 false g

/-- Leaves the innermost braces with the longest alternative; the pattern index stays. -/
def leaveBraces (walk : Walk) : Walk :=
  match walk.braces with
  | [] => walk
  | outer :: rest =>
    { position :=
        { here := ⟨walk.position.here.glob, walk.longest⟩
          wild := outer.wild
          globstar := outer.globstar }
      braces := rest
      longest := if rest.isEmpty then 0 else walk.longest }

def freshAt (g p : Nat) : Position :=
  ⟨⟨g, p⟩, .origin, .origin⟩

/-! ## Rounds -/

/-- Goes back to the last star, if there is one that can take another byte. -/
def backtrack? (text : Bytes) (walk : Walk) : Option Walk :=
  let wild := walk.position.wild
  if 0 < wild.text ∧ wild.text ≤ text.size then
    some { walk with position := { walk.position with here := wild } }
  else none

/-- What happens where pattern and text do not fit: back to a star, to the next alternative, or out
of the braces. -/
def mismatch (glob text : Bytes) (negated : Bool) (walk : Walk) : Round :=
  match backtrack? text walk with
  | some walk => .go walk
  | none =>
    match walk.braces with
    | [] => .finished negated
    | outer :: rest =>
      match braceEnd glob true walk.position.here.glob with
      | (.unclosed, _) => .finished false
      | (.atComma, g) =>
        .go { walk with position := { walk.position with here := ⟨g, outer.here.text⟩ } }
      | (.closed, g) =>
        if 0 < walk.longest then
          .go (leaveBraces
            { walk with position := { walk.position with here := ⟨g, walk.position.here.text⟩ } })
        else
          match backtrack? text { walk with position := outer, braces := rest } with
          | some walk => .go walk
          | none => .finished negated

def enterStar (glob text : Bytes) (walk : Walk) : Round :=
  let ⟨start, p⟩ := walk.position.here
  let double := glob[start + 1]? == some star
  let g := if double then lastGlobstar glob glob.size start else start
  let wild : Place := ⟨g, p + 1⟩
  let after := if double then g + 2 else g + 1
  let wholeSegments := double && after != glob.size &&
    (after < 3 || glob[after - 3]? == some solidus) && glob[after]? == some solidus
  let atSegment := p == 0 || (p < text.size && text[p - 1]? == some solidus)
  let after := if wholeSegments && atSegment then after + 1 else after
  let globstar :=
    if double && (wholeSegments || after == glob.size) then wild else walk.position.globstar
  let blocked := globstar.text != wild.text && text[p]? == some solidus
  let jumps := blocked && 0 < globstar.text && p + 1 < text.size
  let here : Place := ⟨if jumps then globstar.glob else after, p⟩
  let wild : Place :=
    if jumps then ⟨globstar.glob, wild.text⟩
    else if blocked then ⟨wild.glob, 0⟩
    else wild
  let walk := { walk with position := ⟨here, wild, globstar⟩ }
  let next := glob[here.glob]?
  if !walk.braces.isEmpty && (next == some comma || next == some rightBrace) then
    match braceEnd glob false here.glob with
    | (.unclosed, _) => .finished false
    | (_, g) => .go { walk with position := { walk.position with here := ⟨g, p⟩ } }
  else .go walk

def advance (walk : Walk) (g : Nat) : Walk :=
  { walk with position := { walk.position with here := ⟨g, walk.position.here.text + 1⟩ } }

def matchLiteral (glob text : Bytes) (negated : Bool) (walk : Walk) (b byte : UInt8) : Round :=
  match literal? glob walk.position.here.glob b with
  | none => .finished false
  | some (expected, g) =>
    let walk :=
      { walk with position := { walk.position with here := ⟨g, walk.position.here.text⟩ } }
    if byte = expected then
      let afterBraces := !walk.braces.isEmpty && 0 < g && glob[g - 1]? == some rightBrace
      let walk :=
        if afterBraces then leaveBraces { walk with longest := walk.position.here.text } else walk
      let walk := advance walk (g + 1)
      if expected = solidus then .go walk
      else
        .go { walk with
          position := { walk.position with globstar := ⟨walk.position.globstar.glob, 0⟩ } }
    else mismatch glob text negated walk

/-- Ends an alternative at a comma or a closing brace: the longest one is remembered. -/
def endAlternative (walk : Walk) : Walk :=
  { walk with longest := max walk.longest walk.position.here.text }

/-- One round of the walk at a byte of the pattern. -/
def stepAt (glob text : Bytes) (negated : Bool) (walk : Walk) (b : UInt8) : Round :=
  let ⟨g, p⟩ := walk.position.here
  if b = star then enterStar glob text walk
  else if b = rightBrace ∧ !walk.braces.isEmpty then
    let walk := endAlternative walk
    .go (leaveBraces
      { walk with position := { walk.position with here := ⟨g + 1, p⟩ } })
  else if b = comma ∧ !walk.braces.isEmpty then
    match walk.braces with
    | outer :: _ => .go { endAlternative walk with position := freshAt (g + 1) outer.here.text }
    | [] => .finished false
  else
    match text[p]? with
    | none => mismatch glob text negated walk
    | some byte =>
      if b = question then
        if byte = solidus then mismatch glob text negated walk else .go (advance walk (g + 1))
      else if b = leftBracket then
        match classHolds? glob byte (g + 1) with
        | none => .finished false
        | some (true, g) => .go (advance walk g)
        | some (false, g) =>
          mismatch glob text negated
            { walk with position := { walk.position with here := ⟨g, p⟩ } }
      else if b = leftBrace then
        if braceLimit ≤ walk.braces.length then .finished false
        else
          .go { walk with position := freshAt (g + 1) p, braces := walk.position :: walk.braces }
      else matchLiteral glob text negated walk b byte

def step (glob text : Bytes) (negated : Bool) (walk : Walk) : Round :=
  match glob[walk.position.here.glob]? with
  | some b => stepAt glob text negated walk b
  | none =>
    if walk.position.here.text < text.size then mismatch glob text negated walk
    else .finished (!negated)

/-- Makes rounds until one is the last. The answer is false when the rounds run out before. -/
def walkOn (glob text : Bytes) (negated : Bool) : Nat → Walk → Bool
  | 0, _ => false
  | rounds + 1, walk =>
    match step glob text negated walk with
    | .finished isMatch => isMatch
    | .go walk => walkOn glob text negated rounds walk

/-- More than the number of walks: a walk holds at most eleven positions of six indices each, the
longest alternative and the number of positions, and every index is below the base. -/
def roundLimit (glob text : Bytes) : Nat :=
  Nat.pow (glob.size + text.size + 8) 72

/-- Whether a text fits a pattern. Stars in braces can send a walk round and round: with the pattern
`{a/**/b,*}` and the text `a/c`, it is after fourteen rounds where it was after four. Such a walk
never comes to an answer, and the one given here, once the rounds have run out, is false. -/
def fits (glob text : Bytes) : Bool :=
  let marks := (glob.toList.takeWhile (· == exclamation)).length
  walkOn glob text (marks % 2 == 1) (roundLimit glob text) ⟨freshAt marks 0, [], 0⟩

end CountAlarm.Glob
