/-
Raw HTML and autolinks.

`tag?` reads an open or closing tag. A tag inside a paragraph may go over line ends, and then the markers that the new
lines repeat are no part of it; the `newline` argument skips them, and none forbids line ends. `inline?` adds
comments, declarations, processing instructions and character data. `blockEnd?` and `opensBlock` tell which HTML
begins a block and what ends it. `autolink?` reads an address in angle brackets.
-/
import MarkVeil.Markdown.LineStart

namespace MarkVeil.Markdown.Html

open MarkVeil.Text

/-- how a tag goes on after a line end -/
abbrev Newline := Option (List Char → List Char)

/-- a reading of a tag: what was kept of it, last character first, and the rest -/
structure Reading where
  kept : List Char
  rest : List Char
  deriving Repr

namespace Reading

def keepWhile (p : Char → Bool) (r : Reading) : Reading :=
  ⟨(r.rest.takeWhile p).reverse ++ r.kept, r.rest.dropWhile p⟩

/-- keep the next character if it is `c` -/
def keep? (c : Char) (r : Reading) : Option Reading :=
  match r.rest with
  | d :: s => if d = c then some ⟨d :: r.kept, s⟩ else none
  | [] => none

/-- keep the line end, then leave out what the next line repeats -/
def newline? (newline : Newline) (r : Reading) : Option Reading :=
  match newline, r.rest with
  | some skip, '\r' :: '\n' :: s => some ⟨'\n' :: '\r' :: r.kept, skip s⟩
  | some skip, c :: s => some ⟨c :: r.kept, skip s⟩
  | _, _ => none

def blanks? (newline : Newline) : Nat → Reading → Option Reading
  | 0, r => some r
  | fuel + 1, r =>
    match r.rest with
    | [] => some r
    | c :: s =>
      if c = '\n' ∨ c = '\r' then (r.newline? newline).bind (blanks? newline fuel)
      else if isGap c then blanks? newline fuel ⟨c :: r.kept, s⟩
      else some r

/-- blanks that the text may not end in -/
def separator? (newline : Newline) (r : Reading) : Option Reading :=
  (r.blanks? newline r.rest.length).bind fun r' => if r'.rest.isEmpty then none else some r'

/-- a quoted value, up to and with its closing quote -/
def quoted? (newline : Newline) (quote : Char) : Nat → Reading → Option Reading
  | 0, _ => none
  | fuel + 1, r =>
    match r.rest with
    | [] => none
    | c :: s =>
      if c = quote then some ⟨c :: r.kept, s⟩
      else if c = '\n' ∨ c = '\r' then (r.newline? newline).bind (quoted? newline quote fuel)
      else quoted? newline quote fuel ⟨c :: r.kept, s⟩

/-- characters of an unquoted value -/
def isBare (c : Char) : Bool :=
  !(c == '\'' || c == '"' || c == ' ' || c == '=' || c == '>' || c == '<' || c == '`' || c == '\n' || c == '\r')

def value? (newline : Newline) (r : Reading) : Option Reading :=
  match r.rest with
  | [] => none
  | c :: s =>
    if c = '"' ∨ c = '\'' then quoted? newline c (s.length + 1) ⟨c :: r.kept, s⟩
    else if isBare c then some (r.keepWhile isBare)
    else none

/-- characters of an attribute's name after its first -/
def isNameTail (c : Char) : Bool := c.isAlphanum || c == '_' || c == '.' || c == ':' || c == '-'

/-- a name, and a value if an equals sign follows -/
def attribute? (newline : Newline) (r : Reading) : Option Reading :=
  match r.rest with
  | [] => none
  | c :: s =>
    if c.isAlpha ∨ c = '_' ∨ c = ':' then
      let named := Reading.keepWhile isNameTail ⟨c :: r.kept, s⟩
      (named.blanks? newline named.rest.length).bind fun r' =>
        match r'.keep? '=' with
        | none => some named
        | some r' => (r'.blanks? newline r'.rest.length).bind (value? newline)
    else none

def attributes? (newline : Newline) : Nat → Reading → Option Reading
  | 0, _ => none
  | fuel + 1, r =>
    (r.separator? newline).bind fun r' =>
      match r'.rest with
      | '/' :: _ => some r'
      | '>' :: _ => some r'
      | _ => if r'.rest.length = r.rest.length then none else (r'.attribute? newline).bind (attributes? newline fuel)

end Reading

/-- characters of a tag's name after its first -/
def isTagTail (c : Char) : Bool := c.isAlphanum || c == '-'

/-- a tag: what was kept of it, last character first, and the rest -/
def tag? (newline : Newline) : List Char → Option Reading
  | '<' :: '/' :: c :: s =>
    if c.isAlpha then
      ((Reading.keepWhile isTagTail ⟨[c, '/', '<'], s⟩).keepWhile isGap).keep? '>'
    else none
  | '<' :: c :: s =>
    if c.isAlpha then
      let named := Reading.keepWhile isTagTail ⟨[c, '<'], s⟩
      (named.attributes? newline (named.rest.length + 1)).bind fun r => ((r.keep? '/').getD r).keep? '>'
    else none
  | _ => none

/-- the rest after the first occurrence of `mark` -/
def after? (mark : List Char) : List Char → Option (List Char)
  | [] => none
  | c :: s => if mark.isPrefixOf (c :: s) then some ((c :: s).drop mark.length) else after? mark s

/-- a comment, read after `<!--`; `>` and `->` end it at once -/
def comment? (s : List Char) : Option (List Char) :=
  match s with
  | '>' :: s => some s
  | '-' :: '>' :: s => some s
  | s => after? ['-', '-', '>'] s

/-- character data, read after its opening: brackets and `>` end it at the first bracket -/
def characterData? (s : List Char) : Option (List Char) :=
  match s.dropWhile (· != ']') with
  | [] => none
  | s =>
    match s.dropWhile (· == ']') with
    | '>' :: rest => some rest
    | _ => none

/-- HTML that is no tag, read after its `<`: the rest -/
def markup? : List Char → Option (List Char)
  | '!' :: '-' :: '-' :: s => comment? s
  | '!' :: s =>
    if "[CDATA[".toList.isPrefixOf s then characterData? (s.drop 7)
    else
      match s with
      | c :: _ => if c.isAlpha then after? ['>'] s else none
      | [] => none
  | '?' :: s => after? ['?', '>'] s
  | _ => none

/-- HTML inside a paragraph: its text without what new lines repeat, and the rest -/
def inline? (skip : List Char → List Char) (s : List Char) : Option (List Char × List Char) :=
  match markup? (s.drop 1) with
  | some rest => some (s.take (s.length - rest.length), rest)
  | none => (tag? (some skip) s).map fun r => (r.kept.reverse, r.rest)

/-! ## Blocks -/

/-- elements whose open tag begins a block that only their closing tag ends -/
def verbatim : List String := ["pre", "style", "script", "textarea"]

/-- elements whose tags begin a block that a blank line ends -/
def blockTags : List String :=
  ["address", "article", "aside", "base", "basefont", "blockquote", "body", "caption", "center", "col", "colgroup",
   "dd", "details", "dialog", "dir", "div", "dl", "dt", "fieldset", "figcaption", "figure", "footer", "form", "frame",
   "frameset", "h1", "h2", "h3", "h4", "h5", "h6", "head", "header", "hr", "html", "iframe", "legend", "li", "link",
   "main", "menu", "menuitem", "nav", "noframes", "ol", "optgroup", "option", "p", "param", "search", "section",
   "summary", "table", "tbody", "td", "tfoot", "th", "thead", "title", "tr", "track", "ul"]

def lower (s : List Char) : List Char := s.map Char.toLower

/-- the rest after an element's name, compared without case -/
def afterName? (name : List Char) (s : List Char) : Option (List Char) :=
  if lower (s.take name.length) = name then some (s.drop name.length) else none

/-- the text after `<` opens a verbatim element -/
def opensVerbatim (s : List Char) (name : String) : Bool :=
  match afterName? name.toList s with
  | some [] => true
  | some (c :: _) => isAsciiBlank c || c == '>'
  | none => false

/-- what ends the block that the text after `<` begins, if it has an end of its own -/
def blockEnd? (s : List Char) : Option (List Char) :=
  match verbatim.find? (opensVerbatim s) with
  | some name => some ('<' :: '/' :: (name.toList ++ ['>']))
  | none =>
    if "!--".toList.isPrefixOf s then some "-->".toList
    else if "?".toList.isPrefixOf s then some "?>".toList
    else if "![CDATA[".toList.isPrefixOf s then some "]]>".toList
    else
      match s with
      | '!' :: c :: _ => if c.isAlpha then some ['>'] else none
      | _ => none

/-- the text after `<` is a tag that begins a block -/
def opensBlock (s : List Char) : Bool :=
  let s := match s with
    | '/' :: s => s
    | s => s
  let name := s.takeWhile Char.isAlphanum
  blockTags.any (fun t => t.toList == lower name) &&
    match s.drop name.length with
    | [] => true
    | '/' :: '>' :: _ => true
    | c :: _ => c == ' ' || c == '\t' || c == '\r' || c == '\n' || c == '>'

/-- a complete tag alone on its line -/
def aloneOnLine (s : List Char) : Bool :=
  match tag? none s with
  | some r => atBlankLine r.rest
  | none => false

/-! ## Autolinks -/

/-- a scheme of two to thirty-two characters and its colon, at the front of the text; the rest -/
def scheme? (s : List Char) : Option (List Char) :=
  match s with
  | [] => none
  | c :: t =>
    let n := runLen (fun c => c.isAlphanum || c == '.' || c == '-' || c == '+') t
    match t.drop n with
    | ':' :: rest => if c.isAlpha ∧ 1 ≤ n ∧ n ≤ 31 then some rest else none
    | _ => none

/-- an absolute address: what follows its closing bracket -/
def address? (s : List Char) : Option (List Char) :=
  (scheme? s).bind fun rest =>
    match rest.dropWhile fun c => !(c.toNat ≤ 32 || c == '<' || c == '>') with
    | '>' :: rest => some rest
    | _ => none

/-- characters of an e-mail address before its at sign -/
def isMailbox (c : Char) : Bool := c.isAlphanum || ".!#$%&'*+/=?^_`\x7b|\x7d~-".toList.contains c

/-- labels of a domain, up to and with the closing bracket: the rest -/
def domain? : Nat → List Char → Option (List Char)
  | 0, _ => none
  | fuel + 1, s =>
    let label := s.takeWhile fun c => c.isAlphanum || c == '-'
    if label.isEmpty ∨ 63 < label.length ∨ label.head? = some '-' ∨ label.getLast? = some '-' then none
    else
      match s.drop label.length with
      | '.' :: rest => domain? fuel rest
      | '>' :: rest => some rest
      | _ => none

/-- an e-mail address: what follows its closing bracket -/
def mail? (s : List Char) : Option (List Char) :=
  match s.dropWhile isMailbox with
  | '@' :: rest => if (s.takeWhile isMailbox).isEmpty then none else domain? (rest.length + 1) rest
  | _ => none

/-- an autolink, read after its `<`: what follows its `>` -/
def autolink? (s : List Char) : Option (List Char) := (address? s).or (mail? s)

end MarkVeil.Markdown.Html
