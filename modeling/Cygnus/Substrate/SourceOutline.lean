import Cygnus.Data.RegexText

/-! The outline of a source: the headings of its pages as a forest, with the places where they stand
in the text that the pages make up. -/

namespace Cygnus.Substrate

open Text

/-- What is extracted of one page. -/
structure Page where
  content : Option String
  pageNumber : Option Int

namespace Page

def text (page : Page) : String := page.content.getD ""

end Page

def pageJoinSeparator : String := "\n\n"

/-- Where the text goes on after a page. -/
def pastPage (cursor : Nat) (page : Page) (rest : List Page) : Nat :=
  cursor + page.text.length + if rest = [] then 0 else pageJoinSeparator.length

def pageOffsetsFrom (cursor : Nat) : List Page → List Nat
  | [] => []
  | page :: rest => cursor :: pageOffsetsFrom (pastPage cursor page rest) rest

/-- The pages' text, and the place where each page begins. -/
def assembleFullText (pages : List Page) : String × List Nat :=
  (pageJoinSeparator.intercalate (pages.map Page.text), pageOffsetsFrom 0 pages)

/-- The pages with these numbers, counted from one, cut out of the text. -/
def slicePagesByRange (fullText : String) (pageOffsets : List Nat) (pageNumbers : List Int) :
    List (Int × String) :=
  pageNumbers.filterMap fun number =>
    let index := (number - 1).toNat
    if number < 1 ∨ pageOffsets.length ≤ index then none
    else
      let stop : Int := if index + 1 < pageOffsets.length
        then pageOffsets.getD (index + 1) 0 - pageJoinSeparator.length else fullText.length
      some (number, slice fullText (pageOffsets.getD index 0) stop)

section Headings

open Regex Re

def hash : Re := .char (· = '#')

def blank : Re := .char isSpace

/-- `^(#{1,6})\s+(.+?)\s*#*\s*$` over the lines of a text. -/
def headingRe : Re :=
  .seq .lineStart <| .seq (.group 1 (.seq hash (upTo 5 hash))) <| .seq (plus true blank) <|
    .seq (.group 2 (plus false (.char (· ≠ '\n')))) <| .seq (.star true blank) <|
      .seq (.star true hash) <| .seq (.star true blank) .lineEnd

/-- A heading as it is found on its page. -/
structure HeadingStart where
  title : String
  level : Nat
  page : Int
  charStart : Nat
deriving DecidableEq

structure Heading extends HeadingStart where
  charEnd : Nat
deriving DecidableEq

inductive OutlineNode
  | node (heading : Heading) (children : List OutlineNode)

/-- The number a page is known by: its own, unless it has none or zero. -/
def pageNum (index : Nat) (page : Page) : Int :=
  match page.pageNumber with
  | some number => if number = 0 then index + 1 else number
  | none => index + 1

/-- The headings of one page that have a title. -/
def pageHeadings (cursor index : Nat) (page : Page) : List HeadingStart :=
  (headingRe.finditer page.text).filterMap fun found =>
    let title := strip (found.group 2)
    if title = "" then none
    else some ⟨title, (found.group 1).length, pageNum index page, cursor + found.start⟩

def headingStarts (cursor index : Nat) : List Page → List HeadingStart
  | [] => []
  | page :: rest =>
    pageHeadings cursor index page ++ headingStarts (pastPage cursor page rest) (index + 1) rest

def totalLength (cursor : Nat) : List Page → Nat
  | [] => cursor
  | page :: rest => totalLength (pastPage cursor page rest) rest

/-- A heading reaches to the next one of any level, the last one to the end of the text. -/
def withEnds (total : Nat) : List HeadingStart → List Heading
  | [] => []
  | heading :: rest =>
    ⟨heading, (rest.head?.map (·.charStart)).getD total⟩ :: withEnds total rest

end Headings

section Forest

mutual

def OutlineNode.decEq : (a b : OutlineNode) → Decidable (a = b)
  | .node heading children, .node heading' children' =>
    match decEq heading heading', decEqNodes children children' with
    | isTrue hheading, isTrue hchildren => isTrue (by rw [hheading, hchildren])
    | isFalse hne, _ => isFalse fun h => hne (OutlineNode.node.inj h).1
    | _, isFalse hne => isFalse fun h => hne (OutlineNode.node.inj h).2

def decEqNodes : (a b : List OutlineNode) → Decidable (a = b)
  | [], [] => isTrue rfl
  | [], _ :: _ => isFalse (List.cons_ne_nil _ _).symm
  | _ :: _, [] => isFalse (List.cons_ne_nil _ _)
  | node :: nodes, node' :: nodes' =>
    match OutlineNode.decEq node node', decEqNodes nodes nodes' with
    | isTrue hnode, isTrue hnodes => isTrue (by rw [hnode, hnodes])
    | isFalse hne, _ => isFalse fun h => hne (List.cons.inj h).1
    | _, isFalse hne => isFalse fun h => hne (List.cons.inj h).2

end

instance : DecidableEq OutlineNode := OutlineNode.decEq

/-- A node whose children are still being collected. -/
structure OpenNode where
  heading : Heading
  children : List OutlineNode

def OpenNode.close (top : OpenNode) (closed : List OutlineNode) : OutlineNode :=
  .node top.heading (top.children ++ closed)

/-- The stack without the nodes of at least `level`; `closed` are the nodes that were popped above. What
is popped last, when nothing remains, is a root. -/
def popWhile (level : Nat) (closed : List OutlineNode) : List OpenNode →
    List OutlineNode × List OpenNode
  | [] => (closed, [])
  | top :: stack =>
    if level ≤ top.heading.level then popWhile level [top.close closed] stack
    else ([], { top with children := top.children ++ closed } :: stack)

/-- Collect the headings into trees, given the roots so far and the stack. -/
def treeFrom (roots : List OutlineNode) (stack : List OpenNode) : List Heading → List OutlineNode
  | [] => roots ++ (popWhile 0 [] stack).1
  | heading :: rest =>
    let popped := popWhile heading.level [] stack
    treeFrom (roots ++ popped.1) (⟨heading, []⟩ :: popped.2) rest

def buildOutline (pages : List Page) : List OutlineNode :=
  treeFrom [] [] (withEnds (totalLength 0 pages) (headingStarts 0 0 pages))

mutual

/-- The nodes of a tree, each before its children, with their depth below `depth`. -/
def OutlineNode.flatten (depth : Nat) : OutlineNode → List (Heading × List OutlineNode × Nat)
  | .node heading children => (heading, children, depth) :: flattenOutline (depth + 1) children

def flattenOutline (depth : Nat) : List OutlineNode → List (Heading × List OutlineNode × Nat)
  | [] => []
  | node :: nodes => node.flatten depth ++ flattenOutline depth nodes

end

end Forest

end Cygnus.Substrate
