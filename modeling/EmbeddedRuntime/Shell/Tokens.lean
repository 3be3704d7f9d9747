import Mathlib.Data.List.Basic
import Mathlib.Tactic.Common

/-!
# The tokenizer of `shell/parser.c`

A line is a C string: a list of bytes without NUL.  The index of the C loops is
the list of bytes still to be read; allocations succeed.

`Lexes` says without the automaton what a tokenization is: blanks, operators and
words, a word being a sequence of pieces (a bare byte, an escaped byte, a quoted
run), and every operator and word as long as it can be.
-/

set_option autoImplicit false

namespace EmbeddedRuntime.Shell.Tokens

abbrev Bytes := List UInt8

/-- A NUL-terminated string. -/
structure CString where
  bytes : Bytes
  noNul : 0 ∉ bytes

/-- The errors `shell_parse_line` reports. -/
inductive ParseError where
  | invalidArguments
  | trailingEscape
  | unterminatedQuote
  | emptyBeforePipe
  | pipeAtEnd
  | backgroundInside
  | redirectionWithoutPath
  | multipleInputs
  | multipleOutputs
  | emptyCommand
  | inputNotFirst
  | outputNotLast
  deriving DecidableEq, Repr

def ParseError.message : ParseError → String
  | .invalidArguments => "invalid parser arguments"
  | .trailingEscape => "trailing escape in command"
  | .unterminatedQuote => "unterminated quote"
  | .emptyBeforePipe => "empty command before pipe"
  | .pipeAtEnd => "pipe requires a following command"
  | .backgroundInside => "'&' is only valid at the end of a pipeline"
  | .redirectionWithoutPath => "redirection operator requires a file path"
  | .multipleInputs => "multiple input redirections for one command"
  | .multipleOutputs => "multiple output redirections for one command"
  | .emptyCommand => "empty command in pipeline"
  | .inputNotFirst => "input redirection is only valid on the first pipeline stage"
  | .outputNotLast => "output redirection is only valid on the last pipeline stage"

inductive Token where
  | word (text : Bytes)
  | pipe
  | input
  | output
  | append
  | background
  deriving DecidableEq, Repr

def bar : UInt8 := 0x7c
def less : UInt8 := 0x3c
def greater : UInt8 := 0x3e
def ampersand : UInt8 := 0x26
def singleQuote : UInt8 := 0x27
def doubleQuote : UInt8 := 0x22
def backslash : UInt8 := 0x5c

/-- `isspace` of the C locale. -/
def isspace (c : UInt8) : Bool := (9 ≤ c && c ≤ 13) || c == 32

def isOperator (c : UInt8) : Bool := c == bar || c == less || c == greater || c == ampersand

/-- The bytes that end an unquoted word. -/
def endsWord (c : UInt8) : Bool := isspace c || isOperator c

/-- The inner loop of `tokenize`: the text of a word and the bytes after it.
`quote` is the open quote and `buf` the text so far. -/
def readWord (quote : Option UInt8) (buf : Bytes) : Bytes → Except ParseError (Bytes × Bytes)
  | [] => if quote.isSome then .error .unterminatedQuote else .ok (buf, [])
  | c :: rest =>
    if quote = none ∧ endsWord c then .ok (buf, c :: rest)
    else if quote = none ∧ (c = singleQuote ∨ c = doubleQuote) then readWord (some c) buf rest
    else if quote = some c then readWord none buf rest
    else if c = backslash ∧ quote ≠ some singleQuote then
      match rest with
      | [] => .error .trailingEscape
      | escaped :: rest => readWord quote (buf ++ [escaped]) rest
    else readWord quote (buf ++ [c]) rest

theorem readWord_length (quote : Option UInt8) (buf line : Bytes) (text rest : Bytes)
    (read : readWord quote buf line = .ok (text, rest)) : rest.length ≤ line.length := by
  fun_induction readWord quote buf line <;> grind

/-- A word that does not begin at its end has at least one byte. -/
theorem readWord_consumes (c : UInt8) (line text rest : Bytes) (inside : endsWord c = false)
    (read : readWord none [] (c :: line) = .ok (text, rest)) : rest.length ≤ line.length := by
  rw [readWord.eq_def] at read
  simp only [inside, Bool.false_eq_true, and_false, if_false, reduceCtorEq] at read
  split_ifs at read
  · exact readWord_length _ _ _ _ _ read
  · cases line with
    | nil => cases read
    | cons escaped line =>
      have shorter := readWord_length _ _ _ _ _ read
      rw [List.length_cons]
      omega
  · exact readWord_length _ _ _ _ _ read

theorem skip_length (line rest : Bytes) (c : UInt8) (skip : line.dropWhile isspace = c :: rest) :
    rest.length < line.length := by
  have shorter := (List.dropWhile_sublist isspace (l := line)).length_le
  rw [skip, List.length_cons] at shorter
  omega

theorem skip_not_space (line rest : Bytes) (c : UInt8)
    (skip : line.dropWhile isspace = c :: rest) : isspace c = false := by
  have head := List.head?_dropWhile_not isspace line
  rw [skip] at head
  simpa using head

/-- The outer loop of `tokenize`. -/
def tokenize (line : Bytes) : Except ParseError (List Token) :=
  match skip : line.dropWhile isspace with
  | [] => .ok []
  | c :: rest =>
    if c = bar then (Token.pipe :: ·) <$> tokenize rest
    else if c = less then (Token.input :: ·) <$> tokenize rest
    else if c = greater then
      if rest.head? = some greater then (Token.append :: ·) <$> tokenize rest.tail
      else (Token.output :: ·) <$> tokenize rest
    else if c = ampersand then (Token.background :: ·) <$> tokenize rest
    else
      match read : readWord none [] (c :: rest) with
      | .error error => .error error
      | .ok (text, after) => (Token.word text :: ·) <$> tokenize after
termination_by line.length
decreasing_by
  · exact skip_length _ _ _ skip
  · exact skip_length _ _ _ skip
  · have shorter := skip_length _ _ _ skip
    rw [List.length_tail]
    omega
  · exact skip_length _ _ _ skip
  · exact skip_length _ _ _ skip
  · have inside : endsWord c = false := by
      simp_all [endsWord, isOperator, skip_not_space line rest c skip]
    have consumed := readWord_consumes c rest text after inside read
    have shorter := skip_length _ _ _ skip
    omega

/-! ## What a tokenization is -/

/-- A byte that stands for itself outside quotes. -/
def Bare (c : UInt8) : Prop :=
  endsWord c = false ∧ c ≠ singleQuote ∧ c ≠ doubleQuote ∧ c ≠ backslash

/-- One byte of a double-quoted run. -/
inductive DoubleByte where
  | plain (c : UInt8) (allowed : c ≠ doubleQuote ∧ c ≠ backslash)
  | escaped (c : UInt8)

def DoubleByte.source : DoubleByte → Bytes
  | .plain c _ => [c]
  | .escaped c => [backslash, c]

def DoubleByte.text : DoubleByte → UInt8
  | .plain c _ => c
  | .escaped c => c

/-- A part of a word. -/
inductive Piece where
  | bare (c : UInt8) (allowed : Bare c)
  | escaped (c : UInt8)
  | single (body : Bytes) (closed : singleQuote ∉ body)
  | double (body : List DoubleByte)

def Piece.source : Piece → Bytes
  | .bare c _ => [c]
  | .escaped c => [backslash, c]
  | .single body _ => singleQuote :: (body ++ [singleQuote])
  | .double body => doubleQuote :: (body.flatMap DoubleByte.source ++ [doubleQuote])

def Piece.text : Piece → Bytes
  | .bare c _ => [c]
  | .escaped c => [c]
  | .single body _ => body
  | .double body => body.map DoubleByte.text

/-- Nothing follows, or a byte that ends a word. -/
def AtEnd (rest : Bytes) : Prop := ∀ c ∈ rest.head?, endsWord c = true

/-- The operators and the bytes they are written with. -/
def Token.operator : Token → Option Bytes
  | .word _ => none
  | .pipe => some [bar]
  | .input => some [less]
  | .output => some [greater]
  | .append => some [greater, greater]
  | .background => some [ampersand]

/-- `Lexes line tokens`: the line is these tokens with blanks between them. -/
inductive Lexes : Bytes → List Token → Prop where
  | blank (gap : Bytes) (spaces : ∀ c ∈ gap, isspace c = true) : Lexes gap []
  | operator (gap source rest : Bytes) (token : Token) (tokens : List Token)
      (spaces : ∀ c ∈ gap, isspace c = true) (written : token.operator = some source)
      (longest : token = .output → rest.head? ≠ some greater) (tail : Lexes rest tokens) :
      Lexes (gap ++ source ++ rest) (token :: tokens)
  | word (gap rest : Bytes) (pieces : List Piece) (tokens : List Token)
      (spaces : ∀ c ∈ gap, isspace c = true) (nonempty : pieces ≠ []) (longest : AtEnd rest)
      (tail : Lexes rest tokens) :
      Lexes (gap ++ pieces.flatMap Piece.source ++ rest)
        (.word (pieces.flatMap Piece.text) :: tokens)

/-! ## Reading the pieces of a word -/

def IsQuote (c : UInt8) : Prop := c = singleQuote ∨ c = doubleQuote

theorem IsQuote.inside {c : UInt8} (quote : IsQuote c) :
    endsWord c = false ∧ c ≠ backslash := by
  obtain rfl | rfl := quote <;> decide

/-- The loop without the nested match, for a byte that is no escape. -/
theorem readWord_plain (quote : Option UInt8) (buf rest : Bytes) (c : UInt8)
    (noEscape : ¬ (c = backslash ∧ quote ≠ some singleQuote)) :
    readWord quote buf (c :: rest) =
      if quote = none ∧ endsWord c then .ok (buf, c :: rest)
      else if quote = none ∧ (c = singleQuote ∨ c = doubleQuote) then readWord (some c) buf rest
      else if quote = some c then readWord none buf rest
      else readWord quote (buf ++ [c]) rest := by
  rw [readWord.eq_def]
  simp only [noEscape, if_false]

theorem readWord_escape (quote : Option UInt8) (buf rest : Bytes) (c : UInt8)
    (active : quote = none ∨ quote = some doubleQuote) :
    readWord quote buf (backslash :: c :: rest) = readWord quote (buf ++ [c]) rest := by
  obtain rfl | rfl := active <;> rfl

theorem readWord_open (buf rest : Bytes) (c : UInt8) (quote : IsQuote c) :
    readWord none buf (c :: rest) = readWord (some c) buf rest := by
  obtain ⟨inside, noEscape⟩ := quote.inside
  rw [readWord_plain _ _ _ _ (fun escape => noEscape escape.1), if_neg (by simp [inside]),
    if_pos ⟨rfl, quote⟩]

theorem readWord_close (buf rest : Bytes) (c : UInt8) (quote : IsQuote c) :
    readWord (some c) buf (c :: rest) = readWord none buf rest := by
  rw [readWord_plain _ _ _ _ (fun escape => quote.inside.2 escape.1), if_neg (by simp),
    if_neg (by simp), if_pos rfl]

theorem readWord_single (body rest buf : Bytes) (closed : singleQuote ∉ body) :
    readWord (some singleQuote) buf (body ++ singleQuote :: rest) =
      readWord none (buf ++ body) rest := by
  induction body generalizing buf with
  | nil =>
    rw [List.nil_append, List.append_nil, readWord_close _ _ _ (Or.inl rfl)]
  | cons c body ih =>
    have other : c ≠ singleQuote := fun same => closed (same ▸ List.mem_cons_self)
    rw [List.cons_append, readWord_plain _ _ _ _ (by simp), if_neg (by simp), if_neg (by simp),
      if_neg (by simpa using Ne.symm other), ih _ fun mem => closed (List.mem_cons_of_mem _ mem),
      List.append_assoc, List.singleton_append]

theorem readWord_double (body : List DoubleByte) (rest buf : Bytes) :
    readWord (some doubleQuote) buf (body.flatMap DoubleByte.source ++ doubleQuote :: rest) =
      readWord none (buf ++ body.map DoubleByte.text) rest := by
  induction body generalizing buf with
  | nil =>
    rw [List.flatMap_nil, List.nil_append, List.map_nil, List.append_nil,
      readWord_close _ _ _ (Or.inr rfl)]
  | cons byte body ih =>
    rw [List.flatMap_cons, List.append_assoc]
    cases byte with
    | plain c allowed =>
      rw [DoubleByte.source, List.singleton_append,
        readWord_plain _ _ _ _ (fun escape => allowed.2 escape.1), if_neg (by simp),
        if_neg (by simp), if_neg (by simpa using Ne.symm allowed.1), ih]
      simp [DoubleByte.text]
    | escaped c =>
      rw [DoubleByte.source, List.cons_append, List.singleton_append,
        readWord_escape _ _ _ _ (Or.inr rfl), ih]
      simp [DoubleByte.text]

/-- One piece, read outside quotes. -/
theorem readWord_piece (piece : Piece) (buf rest : Bytes) :
    readWord none buf (piece.source ++ rest) = readWord none (buf ++ piece.text) rest := by
  cases piece with
  | bare c allowed =>
    obtain ⟨inside, notSingle, notDouble, notEscape⟩ := allowed
    change readWord none buf (c :: rest) = readWord none (buf ++ [c]) rest
    rw [readWord_plain _ _ _ _ (fun escape => notEscape escape.1), if_neg (by simp [inside]),
      if_neg (by simp [notSingle, notDouble]), if_neg (by simp)]
  | escaped c => exact readWord_escape _ _ _ _ (Or.inl rfl)
  | single body closed =>
    rw [Piece.source, List.cons_append, List.append_assoc, List.singleton_append,
      readWord_open _ _ _ (Or.inl rfl), readWord_single _ _ _ closed, Piece.text]
  | double body =>
    rw [Piece.source, List.cons_append, List.append_assoc, List.singleton_append,
      readWord_open _ _ _ (Or.inr rfl), readWord_double, Piece.text]

theorem readWord_end (buf rest : Bytes) (ended : AtEnd rest) :
    readWord none buf rest = .ok (buf, rest) := by
  cases rest with
  | nil => rfl
  | cons c rest =>
    have last : endsWord c = true := ended c rfl
    rw [readWord.eq_def]
    simp only [last, and_self, if_true]

/-- A word written as pieces is read as their text. -/
theorem readWord_pieces (pieces : List Piece) (buf rest : Bytes) (ended : AtEnd rest) :
    readWord none buf (pieces.flatMap Piece.source ++ rest) =
      .ok (buf ++ pieces.flatMap Piece.text, rest) := by
  induction pieces generalizing buf with
  | nil =>
    rw [List.flatMap_nil, List.nil_append, List.flatMap_nil, List.append_nil]
    exact readWord_end buf rest ended
  | cons piece pieces ih =>
    rw [List.flatMap_cons, List.append_assoc, readWord_piece, ih, List.flatMap_cons,
      List.append_assoc]

/-- `Closing quote source text`: these bytes are the rest of the quoted run that
`quote` has opened, its end included. -/
inductive Closing : Option UInt8 → Bytes → Bytes → Prop where
  | outside : Closing none [] []
  | single (body : Bytes) (closed : singleQuote ∉ body) :
      Closing (some singleQuote) (body ++ [singleQuote]) body
  | double (body : List DoubleByte) :
      Closing (some doubleQuote) (body.flatMap DoubleByte.source ++ [doubleQuote])
        (body.map DoubleByte.text)

/-- What a word read from `line` with an open `quote` looks like. -/
def Resumes (quote : Option UInt8) (line text rest : Bytes) : Prop :=
  ∃ (source opened : Bytes) (pieces : List Piece), Closing quote source opened ∧
    line = source ++ (pieces.flatMap Piece.source ++ rest) ∧
    text = opened ++ pieces.flatMap Piece.text

theorem Resumes.piece {line text rest : Bytes} (piece : Piece) (word : Resumes none line text rest) :
    Resumes none (piece.source ++ line) (piece.text ++ text) rest := by
  obtain ⟨_, _, pieces, ⟨⟩, rfl, rfl⟩ := word
  refine ⟨[], [], piece :: pieces, .outside, ?_, ?_⟩ <;> simp

theorem Resumes.opened {line text rest : Bytes} {c : UInt8} (quote : IsQuote c)
    (word : Resumes (some c) line text rest) : Resumes none (c :: line) text rest := by
  obtain ⟨source, opened, pieces, closing, rfl, rfl⟩ := word
  obtain rfl | rfl := quote
  · obtain _ | ⟨_, closed⟩ := closing
    exact ⟨[], [], .single opened closed :: pieces, .outside, by simp [Piece.source], by
      simp [Piece.text]⟩
  · cases closing with
    | double body =>
      exact ⟨[], [], .double body :: pieces, .outside, by simp [Piece.source], by
        simp [Piece.text]⟩

theorem Resumes.closed {line text rest : Bytes} {c : UInt8} (quote : IsQuote c)
    (word : Resumes none line text rest) : Resumes (some c) (c :: line) text rest := by
  obtain ⟨_, _, pieces, ⟨⟩, rfl, rfl⟩ := word
  obtain rfl | rfl := quote
  · exact ⟨_, _, pieces, .single [] List.not_mem_nil, by simp, rfl⟩
  · exact ⟨_, _, pieces, .double [], by simp, rfl⟩

theorem Resumes.singleByte {line text rest : Bytes} {c : UInt8} (other : c ≠ singleQuote)
    (word : Resumes (some singleQuote) line text rest) :
    Resumes (some singleQuote) (c :: line) (c :: text) rest := by
  obtain ⟨source, opened, pieces, closing, rfl, rfl⟩ := word
  obtain _ | ⟨_, closed⟩ := closing
  exact ⟨_, _, pieces, .single (c :: opened) (by simp [Ne.symm other, closed]), by simp, by simp⟩

theorem Resumes.doubleByte {line text rest : Bytes} (byte : DoubleByte)
    (word : Resumes (some doubleQuote) line text rest) :
    Resumes (some doubleQuote) (byte.source ++ line) (byte.text :: text) rest := by
  obtain ⟨source, opened, pieces, closing, rfl, rfl⟩ := word
  cases closing with
  | double body => exact ⟨_, _, pieces, .double (byte :: body), by simp, by simp⟩

/-- A word that is read is written as pieces, whatever quote was open. -/
theorem readWord_sound (quote : Option UInt8) (buf line text rest : Bytes)
    (legal : ∀ c ∈ quote, IsQuote c) (read : readWord quote buf line = .ok (text, rest)) :
    AtEnd rest ∧ ∃ tail, text = buf ++ tail ∧ Resumes quote line tail rest := by
  fun_induction readWord quote buf line with
  | case1 => cases read
  | case2 quote buf outside =>
    obtain rfl : quote = none := by simpa using outside
    cases read
    exact ⟨by simp [AtEnd], [], by simp, [], [], [], .outside, by simp, by simp⟩
  | case3 quote buf c rest ends =>
    obtain ⟨rfl, ends⟩ := ends
    cases read
    refine ⟨?_, [], by simp, [], [], [], .outside, by simp, by simp⟩
    simpa [AtEnd] using ends
  | case4 quote buf c rest _ opens ih =>
    obtain ⟨rfl, isQuote⟩ := opens
    obtain ⟨ended, tail, same, word⟩ := ih (fun _ same => Option.some.inj same ▸ isQuote) read
    exact ⟨ended, tail, same, word.opened isQuote⟩
  | case5 buf c rest _ _ ih =>
    obtain ⟨ended, tail, same, word⟩ := ih (by simp) read
    exact ⟨ended, tail, same, word.closed (legal c rfl)⟩
  | case6 => cases read
  | case7 quote buf c _ _ _ escapes escaped rest ih =>
    obtain ⟨rfl, active⟩ := escapes
    obtain ⟨ended, tail, rfl, word⟩ := ih legal read
    refine ⟨ended, escaped :: tail, by simp, ?_⟩
    cases quote with
    | none => exact word.piece (.escaped escaped)
    | some open_ =>
      obtain rfl : open_ = doubleQuote := (legal open_ rfl).resolve_left (by simpa using active)
      exact word.doubleByte (.escaped escaped)
  | case8 quote buf c rest notEnd notOpen notClose notEscape ih =>
    obtain ⟨ended, tail, rfl, word⟩ := ih legal read
    refine ⟨ended, c :: tail, by simp, ?_⟩
    cases quote with
    | none =>
      refine word.piece (.bare c ⟨by simpa using notEnd, ?_, ?_, ?_⟩) <;> rintro rfl
      · exact notOpen ⟨rfl, Or.inl rfl⟩
      · exact notOpen ⟨rfl, Or.inr rfl⟩
      · exact notEscape ⟨rfl, by simp⟩
    | some open_ =>
      obtain rfl | rfl := legal open_ rfl
      · exact word.singleByte fun same => notClose (by rw [same])
      · refine word.doubleByte (.plain c ⟨fun same => notClose (by rw [same]), ?_⟩)
        exact fun same => notEscape ⟨same, by decide⟩

/-- A byte inside a word is read as a nonempty sequence of pieces. -/
theorem readWord_pieces_of_ok (c : UInt8) (line text rest : Bytes) (inside : endsWord c = false)
    (read : readWord none [] (c :: line) = .ok (text, rest)) :
    AtEnd rest ∧ ∃ pieces : List Piece, pieces ≠ [] ∧
      c :: line = pieces.flatMap Piece.source ++ rest ∧ text = pieces.flatMap Piece.text := by
  obtain ⟨ended, tail, rfl, _, _, pieces, ⟨⟩, written, rfl⟩ :=
    readWord_sound none [] (c :: line) text rest (by simp) read
  refine ⟨ended, pieces, ?_, written, rfl⟩
  rintro rfl
  have whole : c :: line = rest := by simpa using written
  subst whole
  rw [ended c rfl] at inside
  cases inside

/-! ## The tokenizer computes the tokenization -/

theorem map_cons_ok {α β : Type} (head : α) (result : Except β (List α)) (whole : List α) :
    (head :: ·) <$> result = .ok whole ↔ ∃ tail, result = .ok tail ∧ whole = head :: tail := by
  cases result with
  | error failure => simp [Functor.map, Except.map]
  | ok tail => simp [Functor.map, Except.map, eq_comm]

theorem tokenize_blank (line : Bytes) (skip : line.dropWhile isspace = []) :
    tokenize line = .ok [] := by
  rw [tokenize]
  split
  · rfl
  · simp_all

/-- One turn of the outer loop, on the first byte that is no blank. -/
theorem tokenize_turn (line rest : Bytes) (c : UInt8)
    (skip : line.dropWhile isspace = c :: rest) :
    tokenize line =
      if c = bar then (Token.pipe :: ·) <$> tokenize rest
      else if c = less then (Token.input :: ·) <$> tokenize rest
      else if c = greater then
        if rest.head? = some greater then (Token.append :: ·) <$> tokenize rest.tail
        else (Token.output :: ·) <$> tokenize rest
      else if c = ampersand then (Token.background :: ·) <$> tokenize rest
      else
        match readWord none [] (c :: rest) with
        | .error error => .error error
        | .ok (text, after) => (Token.word text :: ·) <$> tokenize after := by
  rw [tokenize]
  split
  · simp_all
  · rename_i first after skipped
    obtain ⟨rfl, rfl⟩ : first = c ∧ after = rest := by simpa [skipped] using skip
    split_ifs <;> try rfl
    split <;> rename_i read <;> simp only [read]

theorem skip_append (gap line : Bytes) (spaces : ∀ c ∈ gap, isspace c = true) :
    (gap ++ line).dropWhile isspace = line.dropWhile isspace :=
  List.dropWhile_append_of_pos spaces

theorem skip_operator (c : UInt8) (rest : Bytes) (operator : isOperator c = true) :
    (c :: rest).dropWhile isspace = c :: rest := by
  have visible : isspace c = false := by
    simp only [isOperator, Bool.or_eq_true, beq_iff_eq] at operator
    obtain ((rfl | rfl) | rfl) | rfl := operator <;> decide
  rw [List.dropWhile_cons_of_neg (by simp [visible])]

theorem piece_head (piece : Piece) : ∃ c rest, piece.source = c :: rest ∧ endsWord c = false := by
  cases piece with
  | bare c allowed => exact ⟨c, [], rfl, allowed.1⟩
  | escaped c => exact ⟨backslash, [c], rfl, by decide⟩
  | single body _ => exact ⟨singleQuote, _, rfl, by decide⟩
  | double body => exact ⟨doubleQuote, _, rfl, by decide⟩

theorem tokenize_operator (gap source rest : Bytes) (token : Token)
    (spaces : ∀ c ∈ gap, isspace c = true) (written : token.operator = some source)
    (longest : token = .output → rest.head? ≠ some greater) :
    tokenize (gap ++ source ++ rest) = (token :: ·) <$> tokenize rest := by
  have turn (c : UInt8) (after : Bytes) (operator : isOperator c = true) :=
    tokenize_turn (gap ++ c :: after) after c
      ((skip_append gap _ spaces).trans (skip_operator c after operator))
  rw [List.append_assoc]
  cases token with
  | word text => cases written
  | pipe =>
    cases written
    exact (turn bar rest (by decide)).trans (if_pos rfl)
  | input =>
    cases written
    rw [List.singleton_append, turn less rest (by decide), if_neg (by decide), if_pos rfl]
  | output =>
    cases written
    rw [List.singleton_append, turn greater rest (by decide), if_neg (by decide),
      if_neg (by decide), if_pos rfl, if_neg (longest rfl)]
  | append =>
    cases written
    rw [List.cons_append, List.singleton_append, turn greater (greater :: rest) (by decide),
      if_neg (by decide), if_neg (by decide), if_pos rfl, if_pos List.head?_cons, List.tail_cons]
  | background =>
    cases written
    rw [List.singleton_append, turn ampersand rest (by decide), if_neg (by decide),
      if_neg (by decide), if_neg (by decide), if_pos rfl]

theorem tokenize_of_lexes {line : Bytes} {tokens : List Token} (lexes : Lexes line tokens) :
    tokenize line = .ok tokens := by
  induction lexes with
  | blank gap spaces =>
    apply tokenize_blank
    have blank := skip_append gap [] spaces
    rwa [List.append_nil] at blank
  | operator gap source rest token tokens spaces written longest tail ih =>
    rw [tokenize_operator gap source rest token spaces written longest, ih]
    rfl
  | word gap rest pieces tokens spaces nonempty longest tail ih =>
    obtain ⟨piece, pieces, rfl⟩ := List.exists_cons_of_ne_nil nonempty
    obtain ⟨c, more, first, inside⟩ := piece_head piece
    have written : (piece :: pieces).flatMap Piece.source ++ rest =
        c :: (more ++ (pieces.flatMap Piece.source ++ rest)) := by
      simp [first]
    have notSpace : isspace c = false := by simp_all [endsWord]
    have notOperator : isOperator c = false := by simp_all [endsWord]
    simp only [isOperator, Bool.or_eq_false_iff, beq_eq_false_iff_ne] at notOperator
    obtain ⟨⟨⟨notBar, notLess⟩, notGreater⟩, notAmpersand⟩ := notOperator
    have read := readWord_pieces (piece :: pieces) [] rest longest
    rw [written] at read
    rw [List.append_assoc, written, tokenize_turn _ _ c
      ((skip_append gap _ spaces).trans (List.dropWhile_cons_of_neg (by simp [notSpace]))),
      if_neg notBar, if_neg notLess, if_neg notGreater, if_neg notAmpersand, read]
    simp [ih, Functor.map, Except.map]

/-- An operator after blanks, when the loop goes on behind it. -/
theorem lexes_operator {gap source rest : Bytes} {tokens : List Token} (token : Token)
    (spaces : ∀ c ∈ gap, isspace c = true) (written : token.operator = some source)
    (longest : token = .output → rest.head? ≠ some greater)
    (ih : ∀ tail, tokenize rest = .ok tail → Lexes rest tail)
    (success : (token :: ·) <$> tokenize rest = .ok tokens) :
    Lexes (gap ++ source ++ rest) tokens := by
  obtain ⟨tail, call, rfl⟩ := (map_cons_ok _ _ _).mp success
  exact .operator gap source rest token tail spaces written longest (ih tail call)

theorem lexes_of_tokenize (line : Bytes) (tokens : List Token)
    (success : tokenize line = .ok tokens) : Lexes line tokens := by
  induction length : line.length using Nat.strongRecOn generalizing line tokens with
  | ind size ih =>
    subst length
    let gap := line.takeWhile isspace
    have spaces : ∀ c ∈ gap, isspace c = true := List.all_eq_true.mp List.all_takeWhile
    have whole : gap ++ line.dropWhile isspace = line := List.takeWhile_append_dropWhile
    cases skip : line.dropWhile isspace with
    | nil =>
      rw [tokenize_blank line skip] at success
      cases success
      rw [skip, List.append_nil] at whole
      exact whole ▸ .blank gap spaces
    | cons c rest =>
      have shorter := skip_length line rest c skip
      have again (after : Bytes) (small : after.length ≤ rest.length) (tail : List Token)
          (call : tokenize after = .ok tail) : Lexes after tail :=
        ih after.length (by omega) after tail call rfl
      have split : gap ++ [c] ++ rest = line := by
        rw [List.append_assoc, List.singleton_append, ← skip, whole]
      rw [tokenize_turn line rest c skip] at success
      split_ifs at success with isBar isLess isGreater isDouble isAmpersand
      · exact split ▸ isBar ▸ lexes_operator .pipe spaces rfl nofun (again rest (Nat.le_refl _)) success
      · exact split ▸ isLess ▸ lexes_operator .input spaces rfl nofun (again rest (Nat.le_refl _)) success
      · have doubled : rest = greater :: rest.tail := (List.eq_cons_of_mem_head? isDouble)
        have written : gap ++ [greater, greater] ++ rest.tail = line := by
          rw [← split, isGreater, List.append_assoc, List.append_assoc, List.cons_append,
            List.singleton_append, ← doubled, List.singleton_append]
        exact written ▸ lexes_operator .append spaces rfl nofun (again rest.tail (by simp)) success
      · exact split ▸ isGreater ▸
          lexes_operator .output spaces rfl (fun _ => isDouble) (again rest (Nat.le_refl _)) success
      · exact split ▸ isAmpersand ▸ lexes_operator .background spaces rfl nofun (again rest (Nat.le_refl _)) success
      · have inside : endsWord c = false := by
          simp [endsWord, isOperator, skip_not_space line rest c skip, isBar, isLess, isGreater,
            isAmpersand]
        cases read : readWord none [] (c :: rest) with
        | error failure =>
          rw [read] at success
          cases success
        | ok result =>
          obtain ⟨text, after⟩ := result
          simp only [read] at success
          obtain ⟨tail, call, rfl⟩ := (map_cons_ok _ _ _).mp success
          have consumed := readWord_consumes c rest text after inside read
          obtain ⟨ended, pieces, nonempty, written, rfl⟩ :=
            readWord_pieces_of_ok c rest text after inside read
          rw [← whole, skip, written, ← List.append_assoc]
          exact .word gap after pieces tail spaces nonempty ended (again after consumed tail call)

theorem tokenize_iff_lexes (line : Bytes) (tokens : List Token) :
    tokenize line = .ok tokens ↔ Lexes line tokens :=
  ⟨lexes_of_tokenize line tokens, tokenize_of_lexes⟩

end EmbeddedRuntime.Shell.Tokens
