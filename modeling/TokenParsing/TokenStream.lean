import TokenParsing.Describe

/-!
# Token streams

A stream is a buffer of tokens and the number of them already consumed, which no stream has beyond the buffer's size.
Taking tokens makes a new stream over the same buffer; the position is counted from the buffer's origin and never reset.
What parsing may depend on is the position and `rest`, the tokens still ahead: two streams with the same of both are
equal, whatever was consumed before.
-/

namespace TokenParsing

/-- A buffer of tokens and the number of them already consumed. -/
structure TokenStream (τ : Type) where
  /-- All the tokens, consumed or not. -/
  buffer : Array τ
  /-- The number of tokens consumed. -/
  position : Nat
  /-- Only tokens of the buffer are consumed. -/
  position_le_size : position ≤ buffer.size
  deriving Repr

/-- Why a stream refuses a request. -/
inductive StreamError where
  /-- More tokens were requested than remain at the position. -/
  | outOfRange (requested remaining position : Nat)
  /-- A pattern does not occur at or after the position. -/
  | patternNotFound (position : Nat)
  deriving DecidableEq, Repr

/-- The sentence that tells a reader why a request was refused. -/
def StreamError.message : StreamError → String
  | outOfRange requested remaining position =>
    "requested " ++ toString requested ++ " tokens at position " ++ toString position ++ ", but only " ++
      toString remaining ++ " remain"
  | patternNotFound position => "pattern not found after position " ++ toString position

namespace TokenStream

variable {τ : Type}

/-- The stream of a list of tokens, none of them consumed. -/
def ofList (ts : List τ) : TokenStream τ :=
  ⟨ts.toArray, 0, Nat.zero_le _⟩

/-- The stream of the characters of a text. -/
def ofText (text : String) : TokenStream Char :=
  ofList text.toList

/-- The tokens still ahead. -/
def rest (s : TokenStream τ) : List τ :=
  s.buffer.toList.drop s.position

/-- The number of tokens still ahead. -/
def length (s : TokenStream τ) : Nat :=
  s.buffer.size - s.position

/-- Whether no token is ahead. -/
def isEmpty (s : TokenStream τ) : Bool :=
  s.length == 0

/-- The next token, which stays ahead. -/
def head? (s : TokenStream τ) : Option τ :=
  s.buffer[s.position]?

/-- The stream with `n` more tokens consumed, or with all of them where fewer are ahead. -/
def advance (s : TokenStream τ) (n : Nat) : TokenStream τ :=
  ⟨s.buffer, min (s.position + n) s.buffer.size, Nat.min_le_right _ _⟩

/-- The next `n` tokens and the stream after them, or a refusal when fewer are ahead. -/
def take (s : TokenStream τ) (n : Nat) : Except StreamError (List τ × TokenStream τ) :=
  if s.length < n then
    .error (.outOfRange n s.length s.position)
  else
    .ok ((s.buffer.extract s.position (s.position + n)).toList, s.advance n)

/-- The least number of tokens after which a pattern begins in a list. The empty pattern begins everywhere. -/
def firstOccurrence [DecidableEq τ] (pattern : List τ) : List τ → Option Nat
  | [] => if pattern = [] then some 0 else none
  | t :: ts => if pattern.isPrefixOf (t :: ts) then some 0 else (firstOccurrence pattern ts).map (· + 1)

/-- The number of tokens before the first occurrence of a pattern ahead, or a refusal when there is none. -/
def find [DecidableEq τ] (s : TokenStream τ) (pattern : List τ) : Except StreamError Nat :=
  match firstOccurrence pattern s.rest with
  | some k => .ok k
  | none => .error (.patternNotFound s.position)

/-- Streams are equal when the same tokens are ahead at the same position. -/
instance [DecidableEq τ] : BEq (TokenStream τ) where
  beq s t := s.position == t.position && s.rest == t.rest

/-- The text of a stream for a reader: its position and the descriptions of the tokens ahead. -/
def inspect [Describe τ] (s : TokenStream τ) : String :=
  "InputStream \x7b position: " ++ toString s.position ++ ", remaining: " ++ describe s.rest ++ " \x7d"

/-- The characters still ahead, as a text. -/
def restText (s : TokenStream Char) : String :=
  String.ofList s.rest

@[simp] theorem rest_ofList (ts : List τ) : (ofList ts).rest = ts := rfl

@[simp] theorem position_ofList (ts : List τ) : (ofList ts).position = 0 := rfl

@[simp] theorem length_ofList (ts : List τ) : (ofList ts).length = ts.length := by
  simp [ofList, length]

/-- As many tokens are ahead as the stream counts. -/
@[simp] theorem length_rest (s : TokenStream τ) : s.rest.length = s.length := by
  simp [rest, length]

/-- The next token is the first one ahead. -/
@[simp] theorem head?_rest (s : TokenStream τ) : s.rest.head? = s.head? := by
  simp [rest, head?, List.head?_drop]

/-- The tokens of the buffer are those consumed and those still ahead. -/
theorem position_add_length (s : TokenStream τ) : s.position + s.length = s.buffer.size :=
  Nat.add_sub_of_le s.position_le_size

/-- Consuming tokens leaves the buffer as it is. -/
@[simp] theorem buffer_advance (s : TokenStream τ) (n : Nat) : (s.advance n).buffer = s.buffer := rfl

/-- No more tokens are consumed than are ahead. -/
theorem position_advance (s : TokenStream τ) (n : Nat) :
    (s.advance n).position = s.position + min n s.length := by
  have hsize := s.position_add_length
  simp only [advance]
  omega

/-- Tokens that are ahead can be consumed all. -/
theorem position_advance_of_le {s : TokenStream τ} {n : Nat} (h : n ≤ s.length) :
    (s.advance n).position = s.position + n := by
  rw [position_advance, Nat.min_eq_left h]

/-- Consuming tokens never goes back. -/
theorem position_le_advance (s : TokenStream τ) (n : Nat) : s.position ≤ (s.advance n).position := by
  rw [position_advance]
  exact Nat.le_add_right _ _

/-- The tokens behind those consumed stay ahead. -/
@[simp] theorem rest_advance (s : TokenStream τ) (n : Nat) : (s.advance n).rest = s.rest.drop n := by
  simp only [rest, List.drop_drop, advance]
  rw [← Array.length_toList, List.drop_eq_drop_iff, Nat.min_assoc, Nat.min_self]

@[simp] theorem length_advance (s : TokenStream τ) (n : Nat) : (s.advance n).length = s.length - n := by
  simp only [length, buffer_advance, position_advance]
  omega

@[simp] theorem advance_zero (s : TokenStream τ) : s.advance 0 = s := by
  simp [advance, Nat.min_eq_left s.position_le_size]

/-- Tokens consumed in two steps are consumed in one. -/
@[simp] theorem advance_advance (s : TokenStream τ) (m n : Nat) : (s.advance m).advance n = s.advance (m + n) := by
  simp only [advance, mk.injEq, true_and]
  omega

/-- The next token is the first of those ahead. -/
theorem head?_eq_some_iff (s : TokenStream τ) (t : τ) : s.head? = some t ↔ s.rest = t :: (s.advance 1).rest := by
  rw [← head?_rest, rest_advance]
  cases s.rest with
  | nil => simp
  | cons t' ts => simp

/-- A stream with a next token is not at its end. -/
theorem length_pos_of_head? {s : TokenStream τ} {t : τ} (h : s.head? = some t) : 0 < s.length := by
  rw [← length_rest, (head?_eq_some_iff s t).1 h, List.length_cons]
  exact Nat.succ_pos _

/-- A token that is next is consumed at the position after it. -/
theorem position_advance_of_head? {s : TokenStream τ} {t : τ} (h : s.head? = some t) :
    (s.advance 1).position = s.position + 1 :=
  position_advance_of_le (length_pos_of_head? h)

/-- No token is next exactly when none is ahead. -/
theorem head?_eq_none_iff (s : TokenStream τ) : s.head? = none ↔ s.rest = [] := by
  rw [← head?_rest, List.head?_eq_none_iff]

/-- A stream is empty exactly when no token is ahead. -/
theorem isEmpty_eq_true_iff (s : TokenStream τ) : s.isEmpty = true ↔ s.rest = [] := by
  rw [isEmpty, beq_iff_eq, ← length_rest, List.length_eq_zero_iff]

/-- Taking tokens splits what is ahead. -/
theorem take_eq (s : TokenStream τ) (n : Nat) :
    s.take n =
      if s.length < n then .error (.outOfRange n s.length s.position) else .ok (s.rest.take n, s.advance n) := by
  simp [take, rest, List.extract_eq_take_drop]

end TokenStream

end TokenParsing
