import Cygnus.Data.RegexText
import Cygnus.Data.Uuid
import Cygnus.Substrate.SourceOutline

/-! Images of a source: markers in the text of its pages, and captions baked into them later. -/

namespace Cygnus.Substrate

open Text Regex Re

structure ImageInfo where
  imageId : Uuid
  pageNumber : Option Int
  caption : Option String

/-- What `_sanitize_caption_for_alt` puts in the place of a character. -/
def altChar : Char → Char
  | '\n' | '\r' => ' '
  | '[' => '('
  | ']' => ')'
  | c => c

def sanitizeCaptionForAlt (caption : String) : String := strip (caption.map altChar)

def imageMarker (alt uid : String) : String := s!"![{alt}](image://{uid})"

/-- The page an image goes to: the first one, unless it has a number other than zero. -/
def ImageInfo.page (image : ImageInfo) : Int :=
  match image.pageNumber with
  | some number => if number = 0 then 1 else number
  | none => 1

def inlineImageMarkers (images : List ImageInfo) (pages : List Page) : List Page :=
  pages.map fun page =>
    let markers := (images.filter (·.page = page.pageNumber.getD 1)).map fun image =>
      imageMarker (sanitizeCaptionForAlt (image.caption.getD "")) image.imageId.text
    if markers = [] then page
    else { page with content := some (page.text ++ "\n\n" ++ "\n\n".intercalate markers ++ "\n") }

/-- The text, outline and page offsets of a source. -/
structure Extracted where
  outlineJson : List OutlineNode
  fullText : String
  pageOffsets : List Nat

def extractText (images : List ImageInfo) (pages : List Page) : Extracted :=
  let pages := inlineImageMarkers images pages
  let (fullText, pageOffsets) := assembleFullText pages
  ⟨buildOutline pages, fullText, pageOffsets⟩

section Captions

def isUidChar (c : Char) : Bool :=
  ('0' ≤ c && c ≤ '9') || ('a' ≤ c && c ≤ 'f') || ('A' ≤ c && c ≤ 'F') || c = '-'

def imageScheme : List Char := ['(', 'i', 'm', 'a', 'g', 'e', ':', '/', '/']

/-- `!\[[^\]]*\]\(image://([0-9a-fA-F-]+)\)`. -/
def markerRe : Re :=
  .seq (literal ['!', '[']) <| .seq (.star true (.char (· ≠ ']'))) <|
    .seq (literal (']' :: imageScheme)) <|
      .seq (.group 1 (plus true (.char isUidChar))) (literal [')'])

/-- The captions by the text of their image's id. -/
abbrev Captions := List (String × Option String)

/-- A marker with the caption of its image, which is empty when there is none. -/
def captionedMarker (captions : Captions) (found : Re.Match) : String :=
  let uid := found.group 1
  let caption := ((captions.lookup uid).join.getD "").map fun c => if c = '\n' then ' ' else c
  imageMarker (strip caption) uid

/-- The substitution that the captioning task makes when its source has a text and images. -/
def bakeCaptions (captions : Captions) (fullText : String) : String :=
  sub markerRe (fun found => (captionedMarker captions found).toList) fullText

end Captions

end Cygnus.Substrate
