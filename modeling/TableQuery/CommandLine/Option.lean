import TableQuery.Text.Digit
import TableQuery.Text.Quoted

/-!
# Options

What may stand in front of the query on a command line. An option has short and
long spellings. A short one may carry its value or further short options behind
it, a long one may be cut down as long as it stays the only one that begins so,
and either may carry a value behind an equals sign.

`Argument.ofWord` says what one word is, before anything is made of it.
-/

namespace TableQuery.CommandLine

/-- The options. -/
inductive Setting where
  | help
  | indexSeparator
  | cellSeparator
  | outputSeparator
  | header
  | command
  | verbose
  deriving DecidableEq, Repr

namespace Setting

/-- The letter that spells an option behind one dash. -/
def letter : Setting → Char
  | .help => 'h'
  | .indexSeparator => 'F'
  | .cellSeparator => 'I'
  | .outputSeparator => 'O'
  | .header => 'H'
  | .command => 'c'
  | .verbose => 'v'

/-- The name that spells an option behind two dashes, where it has one. -/
def name? : Setting → Option String
  | .help => some "help"
  | .command => some "command"
  | .verbose => some "verbose"
  | _ => none

/-- Every option. -/
def all : List Setting :=
  [.help, .indexSeparator, .cellSeparator, .outputSeparator, .header, .command, .verbose]

/-- Whether an option is given with a value. -/
def takesValue : Setting → Bool
  | .help | .header | .verbose => false
  | .indexSeparator | .cellSeparator | .outputSeparator | .command => true

/-- The option with a letter. -/
def ofLetter? (c : Char) : Option Setting :=
  all.find? fun s => s.letter = c

/-- The long spellings, in order. -/
def longSpellings : List (String × Setting) :=
  all.filterMap fun s => s.name?.map fun name => ("--" ++ name, s)

/-- How a message names an option: by its spellings. -/
def display (s : Setting) : String :=
  let short := String.ofList ['-', s.letter]
  match s.name? with
  | some name => short ++ "/--" ++ name
  | none => short

end Setting

/-- Why a command line cannot be understood. -/
inductive Misuse where
  | ambiguous (word : String) (spellings : List String)
  | missingValue (setting : Setting)
  | ignoredValue (setting : Setting) (value : String)
  | unrecognized (words : List String)
  deriving DecidableEq, Repr

def Misuse.message : Misuse → String
  | .ambiguous word spellings =>
    "ambiguous option: " ++ word ++ " could match " ++ ", ".intercalate spellings
  | .missingValue setting => "argument " ++ setting.display ++ ": expected one argument"
  | .ignoredValue setting value =>
    "argument " ++ setting.display ++ ": ignored explicit argument " ++ Text.quoted value
  | .unrecognized words => "unrecognized arguments: " ++ " ".intercalate words

/-- What a word of the command line is. -/
inductive Argument where
  /-- A word that is no option. -/
  | plain
  /-- Two dashes alone. -/
  | dashes
  /-- An option in its short or long form, and the text it carries. -/
  | option (setting : Setting) (long : Bool) (carried : Option (List Char))
  /-- A word that would be an option, if there were one of that spelling. -/
  | unknown
  deriving DecidableEq, Repr

namespace Argument

/-- Digits of any script, and nothing else. -/
def areDigits (cs : List Char) : Bool :=
  cs.all fun c => (Text.digitValue? c).isSome

/-- Whether what follows a dash makes it a negative number: digits, or digits
with a point in front of the last of them. A line feed at the very end does not
count. -/
def isNumber (cs : List Char) : Bool :=
  let cs := if cs.getLast? = some '\n' then cs.dropLast else cs
  match cs.splitOn '.' with
  | [whole] => !whole.isEmpty && areDigits whole
  | [whole, fraction] => areDigits whole && !fraction.isEmpty && areDigits fraction
  | _ => false

/-- A word that begins like an option but spells none. Negative numbers and
words with a space are taken for plain words. -/
def ofUnspelled (cs : List Char) : Argument :=
  if isNumber cs || cs.contains ' ' then .plain else .unknown

/-- The text in front of the first equals sign, and the one behind it if there is one. -/
def splitCarried (cs : List Char) : List Char × Option (List Char) :=
  (cs.takeWhile (· != '='),
    match cs.dropWhile (· != '=') with
    | [] => none
    | _ :: carried => some carried)

/-- What a word that begins with two dashes is. A whole spelling counts before
any beginning of one. -/
def ofLong (word : String) : Except Misuse Argument :=
  let (spelled, carried) := splitCarried word.toList
  match Setting.longSpellings.find? fun (spelling, _) => spelling.toList = spelled with
  | some (_, s) => .ok (.option s true carried)
  | none =>
    match Setting.longSpellings.filter fun (spelling, _) => spelled.isPrefixOf spelling.toList with
    | [] => .ok (ofUnspelled (word.toList.drop 1))
    | [(_, s)] => .ok (.option s true carried)
    | candidates => .error (.ambiguous word (candidates.map (·.1)))

/-- What a word that begins with one dash and a letter is. An equals sign right
behind the letter of an option only sets its value apart. -/
def ofShort (letter : Char) (rest : List Char) : Argument :=
  match Setting.ofLetter? letter with
  | none => ofUnspelled (letter :: rest)
  | some s =>
    match rest with
    | [] => .option s false none
    | '=' :: carried => .option s false (some carried)
    | carried => .option s false (some carried)

/-- What a word is. -/
def ofWord (word : String) : Except Misuse Argument :=
  match word.toList with
  | ['-', '-'] => .ok .dashes
  | '-' :: '-' :: _ => ofLong word
  | '-' :: letter :: rest => .ok (ofShort letter rest)
  | _ => .ok .plain

end Argument

end TableQuery.CommandLine
