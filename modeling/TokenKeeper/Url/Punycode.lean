/-!
# Names of hosts in ASCII

A name with other characters is written as its ASCII characters, a hyphen, and the places and
values of the others as a row of differences in base 36. The thresholds of the digits follow the
sizes of the differences before. Reading goes the same way back.
-/
namespace TokenKeeper.Url.Punycode

/-- A digit of base 36: letters come first. -/
def digit (n : Nat) : Char := Char.ofNat (if n < 26 then 97 + n else 22 + n)

/-- The threshold of the digit with the weight `k / 36`. -/
def threshold (k bias : Nat) : Nat :=
  if k ≤ bias then 1 else if bias + 26 ≤ k then 26 else k - bias

/-- Divides by 35 until what is left is at most 455; counts the weights passed. -/
def shrink : Nat → Nat → Nat → Nat × Nat
  | 0, delta, k => (delta, k)
  | n + 1, delta, k => if 455 < delta then shrink n (delta / 35) (k + 36) else (delta, k)

/-- The bias after a difference, of which `count` have been written. -/
def adapt (delta count : Nat) (first : Bool) : Nat :=
  let delta := if first then delta / 700 else delta / 2
  let delta := delta + delta / count
  let (rest, k) := shrink delta delta 0
  k + 36 * rest / (rest + 38)

/-- A difference in digits. -/
def digits (bias : Nat) : Nat → Nat → Nat → List Char
  | 0, _, _ => []
  | n + 1, q, k =>
    let t := threshold k bias
    if q < t then [digit q]
    else digit (t + (q - t) % (36 - t)) :: digits bias n ((q - t) / (36 - t)) (k + 36)

structure State where
  delta : Nat
  bias : Nat
  handled : Nat
  out : List Char

/-- One pass over the name for the character with the value `m`: every place before it where a
smaller one stands counts, and each place where it stands itself is written. -/
def pass (basic m : Nat) (s : State) : List Nat → State
  | [] => s
  | c :: cs =>
    if c < m then pass basic m { s with delta := s.delta + 1 } cs
    else if c == m then
      let written := digits s.bias (s.delta + 1) s.delta 36
      let bias := adapt s.delta (s.handled + 1) (s.handled == basic)
      pass basic m ⟨0, bias, s.handled + 1, s.out ++ written⟩ cs
    else pass basic m s cs

/-- The characters that are not ASCII, from the smallest value up, each written in its turn. -/
def passes (basic : Nat) (name : List Nat) : List Nat → Nat → State → State
  | [], _, s => s
  | m :: ms, n, s =>
    let s := pass basic m { s with delta := s.delta + (m - n) * (s.handled + 1) } name
    passes basic name ms (m + 1) { s with delta := s.delta + 1 }

/-- Puts a value into its place among smaller and larger ones, once. -/
def insert (n : Nat) : List Nat → List Nat
  | [] => [n]
  | m :: ms => if n < m then n :: m :: ms else if n == m then m :: ms else m :: insert n ms

/-- The name in ASCII, without the mark that says so. -/
def encode (name : List Char) : List Char :=
  let basic := name.filter fun c => c.toNat < 0x80
  let values := name.map Char.toNat
  let others := (values.filter (0x80 ≤ ·)).foldr insert []
  let start := basic ++ (if basic.isEmpty then [] else ['-'])
  (passes basic.length values others 0x80 ⟨0, 72, basic.length, start⟩).out

def value? (c : Char) : Option Nat :=
  if 'a' ≤ c && c ≤ 'z' then some (c.toNat - 97)
  else if c.isDigit then some (c.toNat - 22)
  else none

/-- The difference that the digits at the front spell, on top of `sum`, and what follows them. -/
def difference? (bias : Nat) : Nat → Nat → Nat → List Char → Option (Nat × List Char)
  | _, _, _, [] => none
  | k, weight, sum, c :: cs =>
    match value? c with
    | none => none
    | some d =>
      let t := threshold k bias
      if d < t then some (sum + d * weight, cs)
      else difference? bias (k + 36) (weight * (36 - t)) (sum + d * weight) cs

theorem length_of_difference? {bias n : Nat} {cs rest : List Char} :
    ∀ {k weight sum : Nat}, difference? bias k weight sum cs = some (n, rest) →
      rest.length < cs.length := by
  induction cs with
  | nil => intro _ _ _ h; simp [difference?] at h
  | cons c cs ih =>
    intro _ _ _ h
    simp only [difference?] at h
    split at h
    · simp at h
    · split at h
      · obtain ⟨-, rfl⟩ := by simpa using h
        simp
      · have := ih h
        simp only [List.length_cons]
        omega

/-- Puts the characters that the digits spell between those of `name`. The next one is `value` or
larger, and `value` itself could only stand at `place` or later. -/
def insertAll (value place bias : Nat) (name : List Nat) (cs : List Char) : Option (List Nat) :=
  if cs.isEmpty then some name
  else
    match _h : difference? bias 36 1 place cs with
    | none => none
    | some (n, rest) =>
      let count := name.length + 1
      let value := value + n / count
      let bias := adapt (n - place) count (place == 0)
      insertAll value (n % count + 1) bias (name.insertIdx (n % count) value) rest
termination_by cs.length
decreasing_by exact length_of_difference? _h

/-- The name that a text in ASCII stands for. The last hyphen ends the part that stands for itself,
and that part is not empty. -/
def decode? (s : List Char) : Option (List Char) :=
  let digits := (s.reverse.takeWhile (· != '-')).reverse
  let basic := s.take (s.length - digits.length - 1)
  -- a hyphen in front of everything is left to the digits, and is none of them
  let digits := if basic.isEmpty then s else digits
  (insertAll 0x80 0 72 (basic.map Char.toNat) digits).bind fun name =>
    if name.all fun n => decide n.isValidChar then some (name.map Char.ofNat) else none

end TokenKeeper.Url.Punycode
