import QualityGate.Failure
import QualityGate.Text.Lines

/-! Text for a console. Tags in square brackets style what stands between them
and are not shown themselves, names of symbols between colons become the
symbols, and characters that would move the cursor are dropped. -/

namespace QualityGate.Console

/-! Styles. The words that name a style may stand in any order; writing what they
set in a fixed order gives all names of a style one form. -/

structure Style where
  /-- Attributes that are switched on or off, the last said first. -/
  attributes : List (String × Bool) := []
  color : Option String := none
  background : Option String := none
  link : Option String := none

namespace Style

/-- Attributes in the order in which they are written, each with its short name. -/
def attributeNames : List (String × String) :=
  [("bold", "b"), ("dim", "d"), ("italic", "i"), ("underline", "u"), ("blink", "blink"), ("blink2", "blink2"),
    ("reverse", "r"), ("conceal", "c"), ("strike", "s"), ("underline2", "uu"), ("frame", "frame"),
    ("encircle", "encircle"), ("overline", "o")]

def attribute? (word : String) : Option String :=
  (attributeNames.find? fun n => n.1 == word || n.2 == word).map (·.1)

def colorNames : List String :=
  ["black", "red", "green", "yellow", "blue", "magenta", "cyan", "white", "purple", "violet", "orchid", "tan",
    "salmon1", "orange1", "pink1", "gold1", "dark_orange", "dark_red", "dark_blue", "dark_green", "dark_cyan",
    "dark_magenta", "dark_violet", "navy_blue", "steel_blue", "hot_pink", "spring_green1", "sea_green1"]

/-- Names, of which some have bright forms, shades of grey, hexadecimal colors and numbered ones. -/
def isColor (word : String) : Bool :=
  let parts := word.toList
  let below (limit : Nat) (digits : List Char) : Bool :=
    digits.length ≤ 3 && (String.ofList digits).toNat?.any (· < limit)
  word == "default" || colorNames.contains word || ((colorNames.take 8).map ("bright_" ++ ·)).contains word ||
    (["grey".toList, "gray".toList].contains (parts.take 4) && below 101 (parts.drop 4)) ||
    (parts.head? == some '#' && parts.length == 7 && (parts.drop 1).all fun c => (Text.hexValue? c).isSome) ||
    ("color(".toList.isPrefixOf parts && parts.getLast? == some ')' && below 256 (parts.drop 6).dropLast)

/-- What the words set, if all of them can be understood. -/
def ofWords (s : Style) : List String → Option Style
  | [] => some s
  | word :: rest =>
    let w := word.toLower
    match attribute? w with
    | some a => ofWords { s with attributes := (a, true) :: s.attributes } rest
    | none =>
      if isColor w then ofWords { s with color := some w } rest
      else match rest with
        | [] => none
        | object :: rest =>
          match w with
          | "on" => if isColor object.toLower then ofWords { s with background := some object.toLower } rest else none
          | "not" => (attribute? object).bind fun a => ofWords { s with attributes := (a, false) :: s.attributes } rest
          | "link" => ofWords { s with link := some object } rest
          | _ => none

def words (s : Style) : List String :=
  let attributes := attributeNames.filterMap fun (a, _) =>
    (s.attributes.lookup a).map fun isOn => if isOn then a else "not " ++ a
  attributes ++ s.color.toList ++ (s.background.map ("on " ++ ·)).toList ++ (s.link.map ("link " ++ ·)).toList

/-- The one form of a style's name; a name that says nothing known is taken as it is, in lower case. -/
def nameOf (text : List Char) : String :=
  let parts := (text.splitBy fun a b => Text.isBlank a == Text.isBlank b).filter fun p => !p.any Text.isBlank
  match ({} : Style).ofWords (parts.map String.ofList) with
  | some s => if s.words.isEmpty then "none" else " ".intercalate s.words
  | none => Text.toLowercase (String.ofList (Text.trim text))

end Style

/-! Tags. -/

def beginsTag (c : Char) : Bool := ('a' ≤ c && c ≤ 'z') || c == '#' || c == '/' || c == '@'

/-- The content of the tag that begins after an opening bracket, and what follows the tag. -/
def tagAfter? (cs : List Char) : Option (List Char × List Char) :=
  let content := cs.takeWhile fun c => c != ']' && c != '['
  match cs.drop content.length with
  | ']' :: r => if content.head?.any beginsTag then some (content, r) else none
  | _ => none

inductive Piece where
  | text (cs : List Char)
  | tag (content : List Char)

/-- The tag at the head of a text after a number of backslashes. -/
def tagAt? (cs : List Char) : Option (Nat × List Char × List Char) :=
  let slashes := (cs.takeWhile (· == '\\')).length
  match cs.drop slashes with
  | '[' :: r => (tagAfter? r).map fun (content, rest) => (slashes, content, rest)
  | _ => none

/-- Two backslashes before a tag stand for one, and a single one before it makes it a text. -/
def tagPieces (slashes : Nat) (content : List Char) : List Piece :=
  let shown := if slashes < 2 then [] else [Piece.text (List.replicate (slashes / 2) '\\')]
  shown ++ [if slashes % 2 == 1 then .text ('[' :: content ++ [']']) else .tag content]

def piecesFrom : Nat → List Char → List Char → List Piece
  | 0, _, _ => []
  | fuel + 1, plain, cs =>
    let before := if plain.isEmpty then [] else [Piece.text plain.reverse]
    match tagAt? cs with
    | some (slashes, content, rest) => before ++ tagPieces slashes content ++ piecesFrom fuel [] rest
    | none =>
      match cs with
      | [] => before
      | c :: r =>
        let slashes := r.takeWhile fun d => c == '\\' && d == '\\'
        piecesFrom fuel (slashes ++ c :: plain) (r.drop slashes.length)

def pieces (cs : List Char) : List Piece := piecesFrom (cs.length + 1) [] cs

/-- Marks the tags in a text as text. A backslash at the end is doubled. -/
def escape (s : String) : String :=
  let cs := go (s.toList.length + 1) s.toList
  let endsSingle := cs.getLast? == some '\\' && !(['\\', '\\'].isSuffixOf cs)
  String.ofList (if endsSingle then cs ++ ['\\'] else cs)
where
  go : Nat → List Char → List Char
    | 0, cs => cs
    | fuel + 1, cs =>
      match tagAt? cs with
      | some (slashes, content, rest) =>
        List.replicate (2 * slashes + 1) '\\' ++ '[' :: content ++ ']' :: go fuel rest
      | none =>
        match cs with
        | [] => []
        | c :: r =>
          let slashes := r.takeWhile fun d => c == '\\' && d == '\\'
          c :: slashes ++ go fuel (r.drop slashes.length)

/-! Symbols. -/

/-- The commoner symbols by their names, which are written between colons. -/
def symbols : List (String × String) :=
  [("100", "💯"), ("1234", "🔢"), ("+1", "👍"), ("-1", "👎"), ("a", "🅰"), ("b", "🅱"), ("m", "Ⓜ"), ("o", "⭕"),
    ("v", "✌"), ("x", "❌"), ("ab", "🆎"), ("id", "🆔"), ("ng", "🆖"), ("ok", "🆗"), ("on", "🔛"), ("up", "🆙"),
    ("vs", "🆚"), ("tm", "™"), ("abc", "🔤"), ("bug", "🐛"), ("end", "🔚"), ("key", "🔑"), ("new", "🆕"),
    ("sos", "🆘"), ("top", "🔝"), ("zap", "⚡"), ("back", "🔙"), ("bell", "🔔"), ("book", "📖"), ("boom", "💥"),
    ("bulb", "💡"), ("cool", "🆒"), ("fire", "🔥"), ("free", "🆓"), ("gear", "⚙"), ("link", "🔗"), ("lock", "🔒"),
    ("memo", "📝"), ("soon", "🔜"), ("star", "⭐"), ("check_mark", "✔"), ("package", "📦"), ("rocket", "🚀"),
    ("smile", "😄"), ("sparkles", "✨"), ("tada", "🎉"), ("warning", "⚠"), ("wrench", "🔧"), ("thumbsup", "👍"),
    ("thumbs_up", "👍"), ("thumbsdown", "👎"), ("thumbs_down", "👎"), ("heart", "❤"), ("red_heart", "❤"),
    ("broken_heart", "💔"), ("smiley", "😃"), ("grinning", "😀"), ("joy", "😂"), ("laughing", "😆"), ("wink", "😉"),
    ("blush", "😊"), ("sunglasses", "😎"), ("cry", "😢"), ("sob", "😭"), ("angry", "😠"), ("rage", "😡"),
    ("thinking_face", "🤔"), ("skull", "💀"), ("ghost", "👻"), ("alien", "👽"), ("robot", "🤖"), ("poop", "💩"),
    ("hankey", "💩"), ("pile_of_poo", "💩"), ("eyes", "👀"), ("wave", "👋"), ("clap", "👏"), ("pray", "🙏"),
    ("muscle", "💪"), ("ok_hand", "👌"), ("white_check_mark", "✅"), ("white_heavy_check_mark", "✅"),
    ("heavy_check_mark", "✔"), ("cross_mark", "❌"), ("question", "❓"), ("exclamation", "❗"), ("no_entry", "⛔"),
    ("no_entry_sign", "🚫"), ("construction", "🚧"), ("stop_sign", "🛑"), ("hourglass", "⌛"), ("watch", "⌚"),
    ("alarm_clock", "⏰"), ("mag", "🔍"), ("hammer", "🔨"), ("pushpin", "📌"), ("clipboard", "📋"),
    ("calendar", "📅"), ("file_folder", "📁"), ("computer", "💻"), ("pizza", "🍕"), ("beer", "🍺"), ("coffee", "☕"),
    ("cake", "🍰"), ("apple", "🍎"), ("banana", "🍌"), ("cat", "🐱"), ("dog", "🐶"), ("snake", "🐍"), ("crab", "🦀"),
    ("turtle", "🐢"), ("penguin", "🐧"), ("whale", "🐳"), ("octopus", "🐙"), ("cloud", "☁"), ("snowflake", "❄"),
    ("rainbow", "🌈"), ("ocean", "🌊"), ("car", "🚗"), ("bike", "🚲"), ("house", "🏠"), ("gift", "🎁"),
    ("balloon", "🎈"), ("trophy", "🏆"), ("crown", "👑"), ("gem", "💎"), ("moneybag", "💰"), ("dollar", "💵"),
    ("heart_eyes", "😍"), ("kiss", "💋"), ("vampire", "🧛"), ("raccoon", "🦝"), ("collision", "💥"),
    ("party_popper", "🎉"), ("light_bulb", "💡"), ("high_voltage", "⚡"), ("glowing_star", "🌟"), ("star2", "🌟"),
    ("page_facing_up", "📄"), ("chart_with_upwards_trend", "📈"), ("lipstick", "💄"), ("art", "🎨"),
    ("ambulance", "🚑"), ("recycle", "♻"), ("heavy_plus_sign", "➕"), ("heavy_minus_sign", "➖"),
    ("arrow_up", "⬆"), ("arrow_down", "⬇"), ("arrow_right", "➡"), ("arrow_left", "⬅")]

/-- What a console brings along. -/
structure Terminal where
  /-- The symbols that it knows by their names. -/
  symbols : List (String × String) := Console.symbols
  /-- How it breaks a line that is too long for it. -/
  fold : String → String := id

section terminal

variable (terminal : Terminal)

/-- The symbol for a name; its form as text or as a picture may be asked for. -/
def symbol? (name : List Char) : Option (List Char) :=
  let ends (s : String) : Bool := s.toList.isSuffixOf name
  let find (name : List Char) : Option (List Char) :=
    (terminal.symbols.lookup (Text.toLowercase (String.ofList name))).map String.toList
  if ends "-emoji" then (find (name.take (name.length - 6))).map (· ++ ['\ufe0f'])
  else if ends "-text" then (find (name.take (name.length - 5))).map (· ++ ['\ufe0e'])
  else find name

/-- Between two colons without a blank there may be a name; colons are paired from the left. -/
def withSymbols : Nat → List Char → List Char
  | 0, cs => cs
  | _, [] => []
  | fuel + 1, c :: r =>
    if c != ':' then c :: withSymbols fuel r
    else
      let name := r.takeWhile fun d => d != ':' && !Text.isBlank d
      match r.drop name.length with
      | ':' :: rest => ((symbol? terminal name).getD (':' :: name ++ [':'])) ++ withSymbols fuel rest
      | _ => c :: withSymbols fuel r

/-! Rendering. -/

/-- A backslash before any bracket is dropped. -/
def dropBracketSlashes : List Char → List Char
  | '\\' :: '[' :: r => '[' :: dropBracketSlashes r
  | c :: r => c :: dropBracketSlashes r
  | [] => []

def shownText (cs : List Char) : List Char :=
  let cs := dropBracketSlashes cs
  withSymbols terminal (cs.length + 1) cs

/-- The styles that are open after a tag, the innermost first. -/
def styles (opened : List String) (content : List Char) : Outcome (List String) :=
  let word := content.takeWhile (· != '=')
  match word with
  | '/' :: r =>
    let unmatched : Failure := .markup ("closing tag '[" ++ String.ofList content ++ "]' has nothing to close")
    if r.all Text.isBlank then (if opened.isEmpty then .error unmatched else .ok (opened.drop 1))
    else
      let style := Style.nameOf r
      if opened.contains style then .ok (opened.erase style) else .error unmatched
  | _ => .ok (Style.nameOf word :: opened)

def shownPieces (opened : List String) : List Piece → Outcome (List Char)
  | [] => .ok []
  | .text cs :: ps => do .ok (shownText terminal cs ++ (← shownPieces opened ps))
  | .tag content :: ps => do shownPieces (← styles opened content) ps

/-- Bell, backspace, vertical tab, form feed and carriage return. -/
def movesCursor (c : Char) : Bool :=
  c == '\x07' || c == '\x08' || c == '\x0b' || c == '\x0c' || c == '\r'

def tabWidth : Nat := 8

/-- A tab is a space, and more of them up to the next multiple of the tab width. -/
def withoutTabs (column : Nat) : List Char → List Char
  | [] => []
  | '\n' :: r => '\n' :: withoutTabs 0 r
  | '\t' :: r =>
    let width := tabWidth - column % tabWidth
    List.replicate width ' ' ++ withoutTabs (column + width) r
  | c :: r => c :: withoutTabs (column + 1) r

/-- What a marked-up text shows. -/
def shown (s : String) : Outcome String := do
  let cs ← shownPieces terminal [] (pieces s.toList)
  .ok (terminal.fold (String.ofList (withoutTabs 0 (cs.filter fun c => !movesCursor c))))

end terminal

end QualityGate.Console
