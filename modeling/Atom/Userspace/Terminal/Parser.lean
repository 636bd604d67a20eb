import Mathlib.Data.List.Basic

/-!
# Terminal — `parse_command`

The tokenizer of `terminal/src/parser.rs`. `parse_command` trims the line, then walks its bytes
once, from `0` to `len` included (the extra step reads a space, so that the last token ends),
with four pieces of state: whether it is inside quotes and which quote opened them, whether it is
inside a token and where that token started. A token ends at a whitespace byte or at the end; a
quoted token ends at its closing quote, but only when the byte after that quote is whitespace.

* `parseCommand_quotedLast`: a quoted last token keeps its closing quote. Its closing quote is
  the last byte, so no whitespace follows it; the token then ends only at the extra step, which
  takes the slice from after the opening quote up to the end, closing quote included.

`ParsedCommand` keeps the command and the `arg_count` arguments that are set; the unused slots of
`args`, all `""`, are left out.
-/

namespace Atom.Terminal

/-- `MAX_ARGS`. -/
def MAX_ARGS : Nat := 16

/-- `char::is_whitespace`, the test `str::trim` strips: Unicode's `White_Space`. -/
def isWhitespace (c : Char) : Bool :=
  let n := c.toNat
  (0x09 ≤ n && n ≤ 0x0D) || n == 0x20 || n == 0x85 || n == 0xA0 || n == 0x1680 ||
    (0x2000 ≤ n && n ≤ 0x200A) || n == 0x2028 || n == 0x2029 || n == 0x202F || n == 0x205F ||
    n == 0x3000

/-- `str::trim`. -/
def trim (s : List Char) : List Char :=
  ((s.dropWhile isWhitespace).reverse.dropWhile isWhitespace).reverse

/-- `u8::is_ascii_whitespace`. -/
def isAsciiWhitespace (b : UInt8) : Bool :=
  b == 0x09 || b == 0x0A || b == 0x0C || b == 0x0D || b == 0x20

/-- The bytes of a string, `str::as_bytes`. -/
def asBytes (s : List Char) : List UInt8 := s.flatMap String.utf8EncodeChar

/-- `&trimmed[start..stop]`, as bytes. -/
def slice (bytes : List UInt8) (start stop : Nat) : List UInt8 := (bytes.drop start).take (stop - start)

/-- `ParsedCommand`, with the arguments `args[..arg_count]`. -/
structure ParsedCommand where
  command : List UInt8
  args : List (List UInt8)
  deriving DecidableEq, Repr

/-- The state of the loop of `parse_command`: `command`, the arguments stored so far, and the
tokenizer's `in_quotes`, `quote_char`, `token_start` and `in_token`. -/
structure TokState where
  command : List UInt8
  args : List (List UInt8)
  inQuotes : Bool
  quoteChar : UInt8
  tokenStart : Nat
  inToken : Bool
  deriving DecidableEq, Repr

namespace TokState

/-- The state before the loop. -/
def init : TokState := ⟨[], [], false, ' '.toUInt8, 0, false⟩

/-- A finished token: it is the command while the command is empty, otherwise the next argument
while there is room. -/
def addToken (st : TokState) (token : List UInt8) : TokState :=
  if st.command.isEmpty then { st with command := token }
  else if st.args.length < MAX_ARGS then { st with args := st.args ++ [token] }
  else st

/-- One pass of the loop, at index `i` of the trimmed bytes (`i = len` is the extra pass). -/
def step (bytes : List UInt8) (st : TokState) (i : Nat) : TokState :=
  let ch := bytes.getD i ' '.toUInt8
  let isEnd := i == bytes.length
  if st.inQuotes then
    if ch = st.quoteChar then
      -- the quote closes, but the token ends here only before whitespace or at the end
      if isEnd ∨ (i + 1 < bytes.length ∧ isAsciiWhitespace (bytes.getD (i + 1) 0)) then
        { st.addToken (slice bytes st.tokenStart i) with inQuotes := false, inToken := false }
      else { st with inQuotes := false }
    else st
  else if ch = '"'.toUInt8 ∨ ch = '\''.toUInt8 then
    if !st.inToken then { st with quoteChar := ch, inQuotes := true, tokenStart := i + 1, inToken := true }
    else st
  else if isAsciiWhitespace ch ∨ isEnd then
    if st.inToken then { st.addToken (slice bytes st.tokenStart i) with inToken := false } else st
  else if !st.inToken then { st with tokenStart := i, inToken := true }
  else st

end TokState

/-- `parse_command`. -/
def parseCommand (input : List Char) : Option ParsedCommand :=
  let trimmed := trim input
  if trimmed.isEmpty then none
  else
    let bytes := asBytes trimmed
    let st := (List.range (bytes.length + 1)).foldl (TokState.step bytes) TokState.init
    if st.command.isEmpty then none else some ⟨st.command, st.args⟩

example : parseCommand "echo hello world".toList =
    some ⟨asBytes "echo".toList, [asBytes "hello".toList, asBytes "world".toList]⟩ := by decide

/-- **A quoted last token keeps its closing quote**: the line `"a"` is parsed as the command
`a"`. -/
theorem parseCommand_quotedLast :
    parseCommand ['"', 'a', '"'] = some ⟨['a'.toUInt8, '"'.toUInt8], []⟩ := by decide

end Atom.Terminal
