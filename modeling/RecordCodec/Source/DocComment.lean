import RecordCodec.Source.Comment
import RecordCodec.Source.RunningText
import RecordCodec.Text.Trim

/-!
This module contains the layout of the comments that document declarations. The text of such a
comment consists of paragraphs, headings, lists, blocks of code and link targets, and is written
anew from these parts.
-/

namespace RecordCodec.Source.DocComment

open RecordCodec.Text

/-! Lines. -/

abbrev Line :=
  List Char

def indentation (line : Line) : Line :=
  line.takeWhile fun c => c == ' ' || c == '\t'

def isIndented (line : Line) : Bool :=
  !(indentation line).isEmpty

def common : Line → Line → Line
  | a :: as, b :: bs => if a == b then a :: common as bs else []
  | _, _ => []

def trimLines (lines : List Line) : List Line :=
  ((lines.dropWhile List.isEmpty).reverse.dropWhile List.isEmpty).reverse

/--
Lines without the indentation that they have in common, and without the blank lines at their start
and end. Lines of white space become empty.
-/
def unindent (lines : List Line) : List Line :=
  match trimLines lines with
  | [] => []
  | first :: rest =>
    let shared := (rest.filter (!·.isEmpty)).foldl (fun shared line => common shared (indentation line))
      (indentation first)
    trimLines ((first :: rest).map fun line =>
      let line := if shared.isPrefixOf line then line.drop shared.length else line
      if (trim line).isEmpty then [] else line)

def listMarker? (line : Line) : Option (Line × Line) := do
  let line := trim line
  let (number, rest) ← match line with
    | [] => none
    | c :: cs =>
      if ['•', '*', '+', '-'].contains c then some ([], cs)
      else
        let digits := line.takeWhile isAsciiDigit
        match line.dropWhile isAsciiDigit with
        | mark :: rest =>
          if digits.isEmpty || (mark != '.' && mark != ')') then none else some (digits, rest)
        | [] => none
  if isIndented rest && !(trim rest).isEmpty then some (number, rest) else none
where
  isAsciiDigit (c : Char) : Bool := decide ('0' ≤ c) && decide (c ≤ '9')

def isListItem (line : Line) : Bool :=
  (listMarker? line).isSome

def isHeading : Line → Bool
  | '#' :: c :: rest => (c == ' ' || c == '\t') && !(trim (c :: rest)).isEmpty
  | _ => false

def forbiddenInHeading : List Char :=
  ";:!?+*/=[]\x7b\x7d_^°&§~%#@<\">\\".toList

def afterEach (c : Char) : Line → List Line
  | [] => []
  | d :: rest => if d == c then rest :: afterEach c rest else afterEach c rest

/--
Whether a line reads as a heading without a mark: it starts with an upper case letter, ends with a
letter or digit, and has no punctuation other than a possessive apostrophe and periods inside words.
-/
def readsAsHeading (line : Line) : Bool :=
  let line := trim line
  line.head?.any (fun c => isLetter c && isUpper c) &&
    line.getLast?.any (fun c => isLetter c || isDigit c) &&
    line.all (!forbiddenInHeading.contains ·) &&
    (afterEach (Char.ofNat 39) line).all (fun rest => rest == ['s'] || rest.take 2 == ['s', ' ']) &&
    (afterEach '.' line).all (fun rest => !rest.isEmpty && rest.head? != some ' ')

/-! Spans. -/

inductive SpanKind where
  | list
  | code
  | heading
  | bareHeading
  | paragraph
  deriving DecidableEq, Repr, Inhabited

structure Extent where
  start : Nat
  stop : Nat
  kind : SpanKind
  deriving Repr, Inhabited

def lineAt (lines : Array Line) (i : Nat) : Line :=
  lines.getD i []

def isBareHeading (lines : Array Line) (i : Nat) : Bool :=
  0 < i && (lineAt lines (i - 1)).isEmpty && i + 2 < lines.size && (lineAt lines (i + 1)).isEmpty &&
    !isIndented (lineAt lines (i + 2)) && readsAsHeading (lineAt lines i)

def skipWhile (p : Nat → Bool) : (count : Nat) → (i : Nat) → Nat
  | 0, i => i
  | count + 1, i => if p i then skipWhile p count (i + 1) else i

def skipBack (p : Nat → Bool) (start : Nat) : Nat → Nat
  | 0 => 0
  | i + 1 => if start < i + 1 && p i then skipBack p start i else i + 1

/--
Where an indented span ends that starts at an index. It takes the blank lines inside, the lines
below `forced`, and, up to a blank line, unindented list items if it starts with one of those. A
closing brace directly after it belongs to it.
-/
def indentedStop (lines : Array Line) (forced start : Nat) : Nat :=
  let stop := go (lines.size - start) (isListItem (lineAt lines start) && start < forced) (start + 1)
  let stop := skipBack (fun i => (lineAt lines i).isEmpty) start stop
  if (lineAt lines stop).head? == some '\x7d' then stop + 1 else stop
where
  go : (count : Nat) → (takesItems : Bool) → (i : Nat) → Nat
    | 0, _, i => i
    | count + 1, takesItems, i =>
      let line := lineAt lines i
      if i < lines.size &&
          (line.isEmpty || i < forced || isIndented line || (takesItems && isListItem line)) then
        go count (takesItems && !line.isEmpty) (i + 1)
      else i

def extents (lines : Array Line) : (fuel : Nat) → (forced i : Nat) → List Extent
  | 0, _, _ => []
  | fuel + 1, forced, i =>
    let start := skipWhile (fun i => i < lines.size && (lineAt lines i).isEmpty) lines.size i
    if lines.size ≤ start then []
    else if start < forced || isIndented (lineAt lines start) then
      let stop := indentedStop lines forced start
      let kind := if isListItem (lineAt lines start) then SpanKind.list else .code
      ⟨start, stop, kind⟩ :: extents lines fuel forced stop
    else
      let next := skipWhile
        (fun i => !(lineAt lines i).isEmpty && !isIndented (lineAt lines i)) lines.size (start + 1)
      let last := lineAt lines (next - 1)
      let precedesCode := !(lineAt lines next).isEmpty && !isListItem (lineAt lines next)
      -- Lines that look like the start of the indented lines below are left to them.
      let (forced, stop) :=
        if precedesCode && isListItem last then
          (next, skipBack (fun i => isListItem (lineAt lines i)) start (next - 1))
        else if precedesCode && (last.getLast? == some '\x7b' || last.getLast? == some '\\') then
          (next, next - 1)
        else (forced, next)
      if precedesCode && start == stop && start < forced then extents lines fuel forced start
      else
        let isSingle := stop == start + 1
        let kind :=
          if isSingle && isHeading (lineAt lines start) then SpanKind.heading
          else if isSingle && isBareHeading lines start then .bareHeading
          else .paragraph
        ⟨start, stop, kind⟩ :: extents lines fuel forced stop

/-! Blocks. -/

structure LinkTarget where
  text : Line
  url : Line
  deriving DecidableEq, Repr, Inhabited

structure ListItem where
  number : Line
  paragraphs : List (List Line)
  deriving Repr, Inhabited

inductive Part where
  | paragraph (lines : List Line)
  | heading (text : Line)
  | code (lines : List Line)
  | list (items : List ListItem) (blankBefore blankBetween : Bool)
  deriving Repr, Inhabited

def cutAt? (mark : Line) : Line → Option (Line × Line)
  | [] => if mark.isEmpty then some ([], []) else none
  | c :: cs =>
    if mark.isPrefixOf (c :: cs) then some ([], (c :: cs).drop mark.length)
    else (cutAt? mark cs).map fun (before, after) => (c :: before, after)

def linkTarget? : Line → Option LinkTarget
  | '[' :: rest => do
    let (text, after) ← cutAt? [']', ':'] rest
    match after with
    | c :: _ :: _ =>
      if c != ' ' && c != '\t' then failure
      let url := trim after.tail
      let (scheme, _) ← cutAt? [':', '/', '/'] url
      if RunningText.isScheme scheme then return ⟨text, url⟩ else failure
    | _ => failure
  | _ => none

def linkTargets? (lines : List Line) : Option (List LinkTarget) :=
  lines.mapM linkTarget?

/--
The lines of list items, where an item starts at each marker of the kind of the first one. Blank
lines divide the paragraphs of an item. All in reverse.
-/
def listItems (isNumbered : Bool) : (items : List (Line × List (List Line))) → List Line →
    List (Line × List (List Line))
  | items, [] => items
  | items, line :: lines =>
    match listMarker? line with
    | some (number, rest) =>
      if (!number.isEmpty) == isNumbered then
        listItems isNumbered ((number, [[trim rest]]) :: items) lines
      else listItems isNumbered (append (trim line) items) lines
    | none => listItems isNumbered (append (trim line) items) lines
where
  append (line : Line) : List (Line × List (List Line)) → List (Line × List (List Line))
    | [] => []
    | (number, paragraphs) :: items =>
      match line, paragraphs with
      | [], _ => (number, [] :: paragraphs) :: items
      | line, [] => (number, [[line]]) :: items
      | line, p :: ps => (number, (line :: p) :: ps) :: items

def listPart (blankBefore : Bool) (lines : List Line) : Part × List LinkTarget :=
  let isNumbered := lines.head?.bind listMarker? |>.any fun (number, _) => !number.isEmpty
  let raw := (listItems isNumbered [] lines).reverse.map fun (number, paragraphs) =>
    (number, (paragraphs.reverse.map List.reverse).filter fun (p : List Line) => !p.isEmpty)
  let items := raw.map fun (number, paragraphs) =>
    ListItem.mk number (paragraphs.filter (linkTargets? · |>.isNone))
  let targets := raw.flatMap fun (_, paragraphs) => (paragraphs.filterMap linkTargets?).flatten
  let blankBetween := lines.any (fun line => (trim line).isEmpty) ||
    items.any (·.paragraphs.length != 1)
  (.list items (blankBefore || blankBetween) blankBetween, targets)

def parts (lines : Array Line) : (last : Nat) → List Extent → List Part × List LinkTarget
  | _, [] => ([], [])
  | last, e :: es =>
    let (more, moreTargets) := parts lines e.stop es
    let own := (lines.extract e.start e.stop).toList
    match e.kind with
    | .list =>
      let (part, targets) := listPart (last < e.start) own
      (part :: more, targets ++ moreTargets)
    | .code => (.code (unindent own) :: more, moreTargets)
    | .heading => (.heading (trim (lineAt lines e.start).tail) :: more, moreTargets)
    | .bareHeading => (.heading (trim (lineAt lines e.start)) :: more, moreTargets)
    | .paragraph =>
      match linkTargets? own with
      | some targets => (more, targets ++ moreTargets)
      | none => (.paragraph own :: more, moreTargets)

/-! Text. -/

def Part.linked : Part → List (List Line)
  | .paragraph lines => [lines]
  | .list items _ _ => items.flatMap (·.paragraphs)
  | _ => []

/--
The text of the lines of a paragraph, where `indent` stands before all lines but the first. `names`
are the names of the links.
-/
def paragraphText (names : List Line) (indent : Line) (lines : List Line) : Line :=
  joinWith ('\n' :: indent) (Text.lines (RunningText.format names (joinWith ['\n'] lines)).1)

def itemText (names : List Line) (item : ListItem) : Line :=
  let marker := if item.number.isEmpty then "  - ".toList else ' ' :: item.number ++ ". ".toList
  let indent := "    ".toList
  marker ++ joinWith ('\n' :: indent)
    (item.paragraphs.map fun p => paragraphText names indent p ++ ['\n'])

def Part.text (names : List Line) : Part → Line
  | .paragraph lines => paragraphText names [] lines ++ ['\n']
  | .heading text => "# ".toList ++ text ++ ['\n']
  | .code lines =>
    lines.flatMap fun line => (if line.isEmpty then [] else '\t' :: line) ++ ['\n']
  | .list items _ blankBetween =>
    joinWith (if blankBetween then ['\n'] else []) (items.map (itemText names))

def Part.needsBlank : Part → Bool
  | .list _ blankBefore _ => blankBefore
  | _ => true

def partsText (names : List Line) (isFirst : Bool) : List Part → Line
  | [] => []
  | p :: ps =>
    (if !isFirst && p.needsBlank then ['\n'] else []) ++ p.text names ++ partsText names false ps

def targetsText (targets : List LinkTarget) : Line :=
  if targets.isEmpty then []
  else '\n' :: targets.flatMap fun t => '[' :: t.text ++ "]: ".toList ++ t.url ++ ['\n']

def splitUsed (names : List Line) (targets : List LinkTarget) : List LinkTarget × List LinkTarget :=
  let marked := targets.zipIdx.map fun (t, i) =>
    (t, names.contains t.text && !(targets.take i).any (·.text == t.text))
  ((marked.filter (·.2)).map (·.1), (marked.filter (!·.2)).map (·.1))

def reformat (text : Line) : Line :=
  let lines := (unindent (Text.lines text)).toArray
  let (parts, targets) := parts lines 0 (extents lines (2 * lines.size + 1) 0 0)
  let names := targets.map LinkTarget.text
  let linked := parts.flatMap fun p =>
    p.linked.flatMap fun lines => (RunningText.format names (joinWith ['\n'] lines)).2
  let (used, unused) := splitUsed linked targets
  partsText names true parts ++ targetsText used ++ targetsText unused

/-! Comments. -/

def isDirective (text : Line) : Bool :=
  ["line ", "extern ", "export "].any (·.toList.isPrefixOf text) ||
    match cutAt? [':'] text with
    | some (before, c :: _) => !before.isEmpty && before.all isPlain && isPlain c
    | _ => false
where
  isPlain (c : Char) : Bool := c.isLower || c.isDigit

def hasStars (text : Line) : Bool :=
  (Text.lines text).tail.all fun line =>
    (line.drop (indentation line).length).head? == some '*'

def lineComments (pos : Pos) (text : Line) : List Comment :=
  let lines := Text.lines text
  let lines := if lines.getLast? == some [] then lines.dropLast else lines
  lines.map fun line =>
    let text := if line.isEmpty then []
      else if line.head? == some '\t' then line
      else ' ' :: line
    ⟨pos, String.ofList ('/' :: '/' :: text)⟩

/--
The comments of a group that documents a declaration, written anew. Instructions to tools come last.
A comment in one line between marks, or with a line of stars, stays as it is.
-/
def format (group : CommentGroup) : CommentGroup :=
  match group with
  | [] => []
  | first :: _ =>
    if first.isLine then
      if group.all Comment.isLine then
        let bodies := group.map fun c => (c, c.text.toList.drop 2)
        let text := bodies.flatMap fun (_, body) =>
          if isDirective body then []
          else (if body.head? == some ' ' then body.tail else body) ++ ['\n']
        if text.isEmpty then group
        else
          let directives := (bodies.filter fun (_, body) => isDirective body).map fun (c, _) =>
            Comment.mk first.pos c.text
          lineComments first.pos (reformat text) ++
            if directives.isEmpty then [] else ⟨first.pos, "//"⟩ :: directives
      else group
    else
      let text := first.text.toList
      if group.length != 1 || !text.contains '\n' || hasStars text then group
      else
        let body := (text.drop 2).take (text.length - 4)
        [⟨first.pos, String.ofList ("/*\n".toList ++ reformat body ++ "*/".toList)⟩]

end RecordCodec.Source.DocComment
