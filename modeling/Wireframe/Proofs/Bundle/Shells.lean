import Wireframe.Bundle.Generate
import Wireframe.Proofs.Bundle.ScriptReading
import Wireframe.Proofs.Markup.Elements

/-!
Contract: what the page shells of a bundle say about their document.

Owns:
- `layoutTokens` and `hostTokens`, the shells as they are meant, with places for the texts
  of a document;
- the shells are read as they are meant, whatever these texts are;
- documents with the same shell, which have the same texts in it.

Does not own: what a browser makes of carriage returns and of null characters.
-/

namespace Wireframe.Bundle

/-! ### The layout file -/

section Layout

open Script

/-- The layout file up to the title. -/
def layoutStartTokens : List Token := [
  .word "import", .literal "./globals.css", .mark ';',
  .word "import", .word "type", .mark '\x7b', .word "Metadata", .mark '\x7d',
  .word "from", .literal "next", .mark ';',
  .word "export", .word "const", .word "metadata", .mark ':', .word "Metadata", .mark '=',
  .mark '\x7b', .word "title", .mark ':']

/-- What stands between the title and the description. -/
def layoutMiddleTokens : List Token :=
  [.mark ',', .word "description", .mark ':']

/-- What stands between the description and the locale. -/
def layoutBeforeLocaleTokens : List Token := [
  .mark ',', .mark '\x7d', .mark ';',
  .word "export", .word "default", .word "function", .word "RootLayout", .mark '(',
  .mark '\x7b', .word "children", .mark '\x7d', .mark ':',
  .mark '\x7b', .word "children", .mark ':', .word "React", .mark '.', .word "ReactNode",
  .mark '\x7d', .mark ')', .mark '\x7b', .word "return", .mark '(']

/-- What stands behind the tag with the locale. -/
def layoutEndTokens : List Token := List.flatten [
  "\n      ".toList.map .char,
  [.opens "body" [], .mark '\x7b', .word "children", .mark '\x7d', .closes "body"],
  "\n    ".toList.map .char,
  [.closes "html", .mark ')', .mark ';', .mark '\x7d']]

/-- The layout file as it is meant. -/
def layoutTokens (title description locale : String) : List Token := List.flatten [
  layoutStartTokens, [.literal title], layoutMiddleTokens, [.literal description],
  layoutBeforeLocaleTokens, [.opens "html" [("lang", locale)]], layoutEndTokens]

theorem reads_layoutStart :
    Reads {} layoutStart.toList layoutStartTokens ⟨.code false, [.braces]⟩ := by
  decide +kernel

theorem reads_layoutMiddle :
    Reads ⟨.code false, [.braces]⟩ layoutMiddle.toList layoutMiddleTokens
      ⟨.code false, [.braces]⟩ := by
  decide +kernel

theorem reads_layoutBeforeLocale :
    Reads ⟨.code false, [.braces]⟩ layoutBeforeLocale.toList layoutBeforeLocaleTokens
      ⟨.value ⟨"html", []⟩ "lang" [], [.braces]⟩ := by
  decide +kernel

theorem reads_layoutEnd (locale : String) :
    Reads ⟨.value ⟨"html", []⟩ "lang" locale.toList, [.braces]⟩ layoutEnd.toList
      ([.opens "html" [("lang", locale)]] ++ layoutEndTokens) ⟨.code false, []⟩ := by
  have isText : layoutEnd.toList = '"' :: '>' :: layoutEnd.toList.drop 2 := by decide +kernel
  have below : Reads ⟨.inside, [.element "html", .braces]⟩ (layoutEnd.toList.drop 2)
      layoutEndTokens ⟨.code false, []⟩ := by decide +kernel
  have ends : step ⟨.value ⟨"html", []⟩ "lang" locale.toList, [.braces]⟩ '"' =
      some ([], ⟨.tag ⟨"html", [("lang", locale)]⟩, [.braces]⟩) := by
    change stepValue [.braces] ⟨"html", []⟩ "lang" locale.toList '"' = _
    rw [stepValue, if_pos rfl, String.ofList_toList]
    rfl
  have opens : step ⟨.tag ⟨"html", [("lang", locale)]⟩, [.braces]⟩ '>' =
      some ([.opens "html" [("lang", locale)]], ⟨.inside, [.element "html", .braces]⟩) := rfl
  rw [isText]
  exact .silent ends (.cons opens below)

theorem read_layoutFile (document : Document) :
    Script.read (layoutFile document) =
      some (layoutTokens document.title (document.description.getD "") document.locale) := by
  have reads := reads_layoutStart
    |>.append (reads_stringLiteral [.braces] false document.title)
    |>.append reads_layoutMiddle
    |>.append (reads_stringLiteral [.braces] false (document.description.getD ""))
    |>.append reads_layoutBeforeLocale
    |>.append (reads_escapeAttribute [.braces] ⟨"html", []⟩ "lang" document.locale)
    |>.append (reads_layoutEnd document.locale)
  apply read_of_reads
  simpa only [layoutFile, attributeText, layoutTokens, String.toList_append,
    String.toList_ofList, List.flatten_cons, List.flatten_nil, List.append_nil,
    List.append_assoc, List.nil_append] using reads

end Layout

/-! ### The host page -/

section Host

open Markup

def doctype : String := "<!doctype html>\n"

/-- A page as its tags and the characters between them, behind its doctype. -/
def readPage (text : String) : Option (List Token) :=
  if doctype.toList.isPrefixOf text.toList then
    tokens? (text.toList.drop doctype.toList.length)
  else none

/-- What stands between the locale and the title. -/
def hostMiddleTokens : List Token := List.flatten [
  charTokens "\n  ".toList, [.opens "head" []],
  charTokens "\n    ".toList, [.alone "meta" [.quoted "charset" "UTF-8"]],
  charTokens "\n    ".toList, [.opens "title" []]]

/-- What stands behind the title. -/
def hostEndTokens : List Token := List.flatten [
  [.closes "title"], charTokens "\n  ".toList, [.closes "head"],
  charTokens "\n  ".toList, [.opens "body" []],
  charTokens "\n    ".toList, [.opens "div" [.quoted "id" "root"], .closes "div"],
  charTokens "\n    ".toList,
  [.opens "script" [.quoted "type" "module", .quoted "src" "/src/main.tsx"], .closes "script"],
  charTokens "\n  ".toList, [.closes "body"], charTokens "\n".toList, [.closes "html"],
  charTokens "\n".toList]

/-- The host page as it is meant. -/
def hostTokens (locale title : String) : List Token := List.flatten [
  [.opens "html" [.quoted "lang" locale]], hostMiddleTokens, charTokens title.toList,
  hostEndTokens]

theorem write_charTokens (chars : List Char) :
    (charTokens chars).flatMap Token.write = escapeText chars :=
  List.flatMap_map Token.char Token.write chars

/-- A tag up to the value of its one attribute. -/
def quotedStart (tag key : String) : List Char :=
  '<' :: (tag.toList ++ ' ' :: (key.toList ++ ['=', '"']))

theorem write_opens_quoted (tag key value : String) :
    Token.write (.opens tag [.quoted key value]) =
      quotedStart tag key ++ (escapeAttribute value.toList ++ ['"', '>']) := by
  have isPrinted : Attribute.print (.quoted key value) =
      ' ' :: (key.toList ++ '=' :: '"' :: (escapeAttribute value.toList ++ ['"'])) := rfl
  simp [Token.write, Element.opening, isPrinted, quotedStart]

/-- The host page is its doctype and what it is meant to be, as it is written. -/
theorem toList_hostFile (document : Document) :
    (hostFile document).toList = doctype.toList ++
      (hostTokens document.locale document.title).flatMap Token.write := by
  have isStart : hostStart.toList = doctype.toList ++ quotedStart "html" "lang" := by
    decide +kernel
  have isMiddle : hostMiddle.toList = ['"', '>'] ++ hostMiddleTokens.flatMap Token.write := by
    decide +kernel
  have isEnd : hostEnd.toList = hostEndTokens.flatMap Token.write := by decide +kernel
  simp only [hostFile, attributeText, hostTokens, String.toList_append, String.toList_ofList,
    isStart, isMiddle, isEnd, List.flatten_cons, List.flatten_nil, List.append_nil,
    List.flatMap_append, List.flatMap_singleton, write_opens_quoted, write_charTokens,
    List.append_assoc]

theorem read_hostFile (document : Document) :
    readPage (hostFile document) = some (hostTokens document.locale document.title) := by
  have plainChars : (charTokens document.title.toList).all Token.isPlain = true :=
    List.all_eq_true.mpr (List.forall_mem_map.mpr fun _ _ => rfl)
  have plainMiddle : hostMiddleTokens.all Token.isPlain = true := by decide +kernel
  have plainEnd : hostEndTokens.all Token.isPlain = true := by decide +kernel
  have plain : (hostTokens document.locale document.title).all Token.isPlain = true := by
    simp only [hostTokens, List.all_flatten, List.all_cons, plainMiddle, plainChars, plainEnd]
    rfl
  rw [readPage, toList_hostFile, if_pos (List.isPrefixOf_iff_prefix.mpr (List.prefix_append _ _)),
    List.drop_left]
  exact (Token.scans_writeAll plain).tokens?_eq

end Host

/-! ### The shells of two documents -/

theorem layoutTokens_injective {title description locale : String}
    {otherTitle otherDescription otherLocale : String}
    (same : layoutTokens title description locale =
      layoutTokens otherTitle otherDescription otherLocale) :
    title = otherTitle ∧ description = otherDescription ∧ locale = otherLocale := by
  simpa [layoutTokens] using same

theorem hostTokens_injective {locale title otherLocale otherTitle : String}
    (same : hostTokens locale title = hostTokens otherLocale otherTitle) :
    locale = otherLocale ∧ title = otherTitle := by
  simp only [hostTokens, List.flatten_cons, List.singleton_append] at same
  obtain ⟨sameTag, sameRest⟩ := List.cons.inj same
  have sameTokens := List.append_cancel_right (List.append_cancel_left sameRest)
  have sameChars : title.toList = otherTitle.toList :=
    List.map_injective_iff.mpr (fun _ _ => Markup.Token.char.inj) sameTokens
  have sameLocale : locale = otherLocale := by simpa using sameTag
  exact ⟨sameLocale, String.toList_injective sameChars⟩

/-- A file in a document's bundle. -/
def fileIn (document : Document) (framework : Framework) (path : String) : Option String :=
  (document.generate ⟨framework⟩).files.lookup path

/-- The texts of a document do not break out of the page shells: whatever characters are in
them, the shells are read as they are meant, with these texts in their places. So documents
have the same shell just where they have the same texts in it. -/
theorem shells_quote (left right : Document) :
    (fileIn left .next "app/layout.tsx").bind Script.read =
        some (layoutTokens left.title (left.description.getD "") left.locale) ∧
      (fileIn left .react "index.html").bind readPage =
        some (hostTokens left.locale left.title) ∧
      (fileIn left .next "app/layout.tsx" = fileIn right .next "app/layout.tsx" ↔
        left.title = right.title ∧ left.description.getD "" = right.description.getD "" ∧
          left.locale = right.locale) ∧
      (fileIn left .react "index.html" = fileIn right .react "index.html" ↔
        left.locale = right.locale ∧ left.title = right.title) := by
  have isLayout (document : Document) :
      fileIn document .next "app/layout.tsx" = some (layoutFile document) := rfl
  have isHost (document : Document) :
      fileIn document .react "index.html" = some (hostFile document) := rfl
  simp only [isLayout, isHost, Option.bind_some, Option.some.injEq]
  refine ⟨read_layoutFile left, read_hostFile left, ⟨fun same => ?_, ?_⟩, ⟨fun same => ?_, ?_⟩⟩
  · have read := read_layoutFile left
    rw [same, read_layoutFile right] at read
    exact layoutTokens_injective (Option.some.inj read).symm
  · rintro ⟨sameTitle, sameDescription, sameLocale⟩
    rw [layoutFile, sameTitle, sameDescription, sameLocale, layoutFile]
  · have read := read_hostFile left
    rw [same, read_hostFile right] at read
    exact hostTokens_injective (Option.some.inj read).symm
  · rintro ⟨sameLocale, sameTitle⟩
    rw [hostFile, sameLocale, sameTitle, hostFile]

end Wireframe.Bundle
