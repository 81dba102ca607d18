/-
  DesignMarkup/Text/Uncontrolled.lean
  ===================================
  **A text that cannot steer a terminal.**  Where output does not go to a terminal,
  control characters and control sequences are left out of it and only what would
  have shown is kept: printable characters, line breaks, tabs and form feeds.

  A sequence starts with the escape character; `Phase` says which part of one a
  terminal is in, and `Phase.after` how a character moves it on.  White space inside
  a sequence still shows, and takes along the characters right after it that show
  outside of a sequence, although the terminal has not left the sequence.
-/

namespace DesignMarkup.Text

/-- Which part of a control sequence a terminal is in. -/
inductive Phase where
  /-- Outside of any sequence. -/
  | outside
  | escape
  /-- After an escape character and at least one character between space and slash. -/
  | escapeIntermediate
  /-- The parameters of a control sequence, up to the letter that ends it. -/
  | parameters
  /-- The start of a device control string. -/
  | deviceEntry
  | deviceParameters
  | deviceIntermediate
  /-- A string that only a string terminator ends. -/
  | plainString
  /-- A command to the operating system, which a bell ends as well. -/
  | command
deriving DecidableEq, Repr

/-- White space that is no plain space: it shows even in the middle of a sequence. -/
def isLayout (c : Char) : Bool := c == '\t' || c == '\n' || c == '\x0c' || c == '\r'

/-- Whether a character shows outside of a sequence. -/
def shows (c : Char) : Bool :=
  (' ' ≤ c && c ≤ '~') || 0x80 ≤ c.toNat || isLayout c

/-- Whether one of the bytes of a character is the single-byte string terminator. -/
def holdsTerminator (c : Char) : Bool := (String.utf8EncodeChar c).contains 0x9C

namespace Phase

/-- Where the first character after an escape character leads. -/
def afterEscape (c : Char) : Phase :=
  if c == '[' then .parameters
  else if c == ']' then .command
  else if c == 'P' then .deviceEntry
  else if c == 'X' || c == '^' || c == '_' then .plainString
  else if ' ' ≤ c && c ≤ '/' then .escapeIntermediate
  else if '0' ≤ c && c ≤ '~' then .outside
  else .escape

/-- Where a character leads from the start of a device control string.  `phase` is
    where the terminal is, and `ignoredFrom` the first of the characters up to the
    question mark that spoil the string. -/
def afterDevice (phase : Phase) (ignoredFrom : Char) (c : Char) : Phase :=
  if '@' ≤ c && c ≤ '~' then .plainString
  else if ignoredFrom ≤ c && c ≤ '?' then .plainString
  else if ' ' ≤ c && c ≤ '/' then .deviceIntermediate
  else if '0' ≤ c && c ≤ '?' then .deviceParameters
  else phase

/-- Where a character leads. -/
def after (phase : Phase) (c : Char) : Phase :=
  if c == '\x1b' then .escape
  else if c == '\x18' || c == '\x1a' then .outside
  else
    match phase with
    | .outside => .outside
    | .escape => afterEscape c
    | .escapeIntermediate => if '0' ≤ c && c ≤ '~' then .outside else .escapeIntermediate
    | .parameters => if '@' ≤ c && c ≤ '~' then .outside else .parameters
    | .deviceEntry => afterDevice .deviceEntry '@' c
    | .deviceParameters => afterDevice .deviceParameters '<' c
    | .deviceIntermediate => afterDevice .deviceIntermediate '0' c
    | .plainString => if holdsTerminator c then .outside else .plainString
    | .command => if c == '\x07' then .outside else .command

/-- Whether a character shows. -/
def lets (phase : Phase) (c : Char) : Bool :=
  match phase with
  | .outside => shows c
  | .escape | .escapeIntermediate | .parameters => isLayout c
  | .deviceEntry | .deviceParameters | .deviceIntermediate | .plainString | .command => false

end Phase

/-- The characters that show.  `running` says that the character before did. -/
def uncontrolledFrom (running : Bool) (phase : Phase) : List Char → List Char
  | [] => []
  | c :: rest =>
    if running && shows c then
      c :: uncontrolledFrom true (if c.toNat < 0x80 then phase else .outside) rest
    else if phase.lets c then c :: uncontrolledFrom true (phase.after c) rest
    else uncontrolledFrom false (phase.after c) rest

/-- A text without control characters and control sequences. -/
def uncontrolled (text : String) : String :=
  String.ofList (uncontrolledFrom false .outside text.toList)

end DesignMarkup.Text
