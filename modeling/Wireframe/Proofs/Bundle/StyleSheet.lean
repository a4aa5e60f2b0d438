import Wireframe.Bundle.Shell
import Wireframe.Check.Validator
import Wireframe.Proofs.Bundle.StyleReading

/-!
Contract: theme values in the style sheet of a bundle.

Owns:
- `Contained`, a value behind which a semicolon ends a declaration;
- the style sheet is read as it is meant just where both theme values are contained, which
  the characters that they may not hold do not ensure;
- a document whose accent colour is not contained.
-/

namespace Wireframe.Bundle

open Sheet

/-- A value behind which a semicolon ends the declaration that the value stands in. -/
def Contained (value : String) : Prop :=
  (Lexer.blockStart.run value.toList).atRest = true

instance (value : String) : Decidable (Contained value) :=
  inferInstanceAs (Decidable (_ = true))

/-- The rules of the style sheet as they are meant. -/
def meantRules (accent font : String) : List Sheet.Rule := [
  .statement "@tailwind base",
  .statement "@tailwind components",
  .statement "@tailwind utilities",
  .block ":root" [⟨"--accent", " " ++ accent⟩],
  .block "body" [⟨"font-family", " " ++ font⟩, ⟨"background", " #f8fafc"⟩]]

/-! ### Theme values hold no mark -/

/-- No semicolon and no brace is in a text. -/
def Unmarked (value : String) : Prop :=
  ∀ char ∈ value.toList, Mark.ofChar? char = none

theorem unmarked_of_isStyleSafe {value : String} (safe : isStyleSafe value = true) :
    Unmarked value := by
  intro char isMember
  have allowed := List.all_eq_true.mp (Bool.and_eq_true_iff.mp safe).2 char isMember
  simp only [Bool.and_eq_true, bne_iff_ne] at allowed
  simp [Mark.ofChar?, allowed]

theorem isStyleSafe_safeOr {standard : String} (safe : isStyleSafe standard = true)
    (value : Option String) : isStyleSafe (safeOr standard value) = true := by
  cases value with
  | none => exact safe
  | some value =>
      rw [safeOr]
      split
      · assumption
      · exact safe

theorem unmarked_accentColor (document : Document) : Unmarked (accentColor document) :=
  unmarked_of_isStyleSafe (isStyleSafe_safeOr (by decide) _)

theorem unmarked_bodyFont (document : Document) : Unmarked (bodyFont document) :=
  unmarked_of_isStyleSafe (isStyleSafe_safeOr (by decide) _)

/-! ### The parts of the sheet -/

/-- The pieces in front of the accent colour. -/
def startPieces : List (List Char × Mark) := [
  ("@tailwind base".toList, .semicolon),
  ("\n@tailwind components".toList, .semicolon),
  ("\n@tailwind utilities".toList, .semicolon),
  ("\n\n:root ".toList, .opening)]

/-- The pieces behind the font. -/
def endPieces : List (List Char × Mark) := [
  ("\n  background: #f8fafc".toList, .semicolon),
  ("\n".toList, .closing)]

/-- The declaration that a value stands in, up to the end of the value. -/
def declarationText (name value : String) : List Char :=
  name.toList ++ ':' :: ' ' :: value.toList

theorem declarationText_append (name value : String) :
    declarationText name "" ++ value.toList = declarationText name value := by
  simp [declarationText]

def accentName : String := "\n  --accent"

def fontName : String := "\n  font-family"

theorem run_styleStart : Reading.run {} styleStart.toList =
    ⟨Lexer.blockStart, declarationText accentName "", startPieces⟩ := by
  decide +kernel

/-- The text between the theme values, behind its semicolon. -/
theorem run_styleMiddle : Reading.run { lexer := Lexer.blockStart } styleMiddle.toList.tail =
    ⟨Lexer.blockStart, declarationText fontName "",
      [("\n".toList, .closing), ("\n\nbody ".toList, .opening)]⟩ := by
  decide +kernel

theorem run_styleEnd : Reading.run { lexer := Lexer.blockStart } styleEnd.toList.tail =
    ⟨{}, "\n".toList, endPieces⟩ := by
  decide +kernel

/-! ### Values in the sheet -/

section Values

variable {value : String} (text : List Char) (pieces : List (List Char × Mark))

/-- A value that is contained ends where the semicolon behind it stands. -/
theorem run_value_semicolon (unmarked : Unmarked value) (contained : Contained value) :
    Reading.run ⟨Lexer.blockStart, text, pieces⟩ (value.toList ++ [';']) =
      Reading.behind (pieces ++ [(text ++ value.toList, .semicolon)])
        { lexer := Lexer.blockStart } := by
  have inBlock := Lexer.inBlock_blockStart.run unmarked
  have isOpened := inBlock.opened_of_atRest contained
  have cuts : Reading.cut? ⟨Lexer.blockStart.run value.toList, text ++ value.toList, pieces⟩ ';' =
      some .semicolon := if_pos contained
  rw [Reading.run_append, Reading.run_of_unmarked unmarked]
  change Reading.step _ ';' = _
  rw [Reading.step_of_cut cuts, Lexer.step_semicolon contained, isOpened, Reading.behind,
    List.append_nil]
  rfl

/-- Behind a value that is not contained, the semicolon belongs to it. -/
theorem exists_piece_of_not_contained (unmarked : Unmarked value) (escapes : ¬ Contained value)
    (rest : List Char) :
    let last := Reading.run ⟨Lexer.blockStart, text, pieces⟩ (value.toList ++ ';' :: rest)
    last.pieces = pieces ∨ ∃ longer mark more, last.pieces = pieces ++ (longer, mark) :: more ∧
      text ++ value.toList ++ [';'] <+: longer := by
  have goesOn : Reading.cut? ⟨Lexer.blockStart.run value.toList, text ++ value.toList, pieces⟩
      ';' = none := if_neg escapes
  rw [Reading.run_append, Reading.run_of_unmarked unmarked]
  change (Reading.run (Reading.step _ ';') rest).pieces = _ ∨ ∃ longer mark more,
    (Reading.run (Reading.step _ ';') rest).pieces = _ ∧ _
  rw [Reading.step_of_not_cut goesOn]
  exact Reading.exists_piece _ rest

end Values

/-! ### The rules of the sheet -/

theorem ofList_blank_cons (value : String) :
    String.ofList (' ' :: value.toList) = " " ++ value := by
  rw [← String.toList_inj, String.toList_append, String.toList_ofList]
  rfl

/-- The rules in front of the block of the accent colour. -/
def startRules : List Sheet.Rule := [
  .statement "@tailwind base",
  .statement "@tailwind components",
  .statement "@tailwind utilities"]

theorem rules?_startPieces (rest : List (List Char × Mark)) :
    rules? none (startPieces ++ rest) =
      (rules? (some (":root", [])) rest).map (startRules ++ ·) := by
  have selector : trim "\n\n:root ".toList = ":root" := by decide
  have first : trim "@tailwind base".toList = "@tailwind base" := by decide
  have second : trim "\n@tailwind components".toList = "@tailwind components" := by decide
  have third : trim "\n@tailwind utilities".toList = "@tailwind utilities" := by decide
  rw [startPieces, List.cons_append, List.cons_append, List.cons_append, List.cons_append,
    List.nil_append, rules?, rules?, rules?, rules?, if_pos (by decide), if_pos (by decide),
    if_pos (by decide), selector, first, second, third, Option.map_map, Option.map_map]
  rfl

/-- The pieces of the block of the accent colour, and of what stands in front of the font. -/
def accentPieces (accent : String) : List (List Char × Mark) :=
  startPieces ++ [(declarationText accentName accent, .semicolon), ("\n".toList, .closing),
    ("\n\nbody ".toList, .opening)]

theorem rules?_declarationText {name : String} (noColon : ':' ∉ name.toList)
    (value selector : String) (earlier : List Declaration) (rest : List (List Char × Mark)) :
    rules? (some (selector, earlier)) ((declarationText name value, .semicolon) :: rest) =
      rules? (some (selector, earlier ++ [⟨trim name.toList, " " ++ value⟩])) rest := by
  rw [rules?, declarationText, declaration?_of_colon noColon, ofList_blank_cons]
  rfl

/-- The rules in front of the block of the font. -/
def accentRules (accent : String) : List Sheet.Rule :=
  startRules ++ [.block ":root" [⟨"--accent", " " ++ accent⟩]]

theorem rules?_accentPieces (accent : String) (rest : List (List Char × Mark)) :
    rules? none (accentPieces accent ++ rest) =
      (rules? (some ("body", [])) rest).map (accentRules accent ++ ·) := by
  have name : trim accentName.toList = "--accent" := by decide
  have selector : trim "\n\nbody ".toList = "body" := by decide
  rw [accentPieces, List.append_assoc, rules?_startPieces, List.cons_append,
    rules?_declarationText (by decide), List.cons_append, List.cons_append, List.nil_append,
    rules?, if_pos (by decide), rules?, selector, name, Option.map_map]
  rfl

theorem rules?_fontPieces (accent font : String) :
    rules? none (accentPieces accent ++ (declarationText fontName font, .semicolon) :: endPieces) =
      some (meantRules accent font) := by
  have name : trim fontName.toList = "font-family" := by decide
  have background : rules? (some ("body", [⟨"font-family", " " ++ font⟩])) endPieces =
      some [.block "body" [⟨"font-family", " " ++ font⟩, ⟨"background", " #f8fafc"⟩]] := by
    have declares : declaration? "\n  background: #f8fafc".toList =
        some ⟨"background", " #f8fafc"⟩ := by decide
    rw [endPieces, rules?, declares, Option.bind_some, rules?, if_pos (by decide)]
    rfl
  rw [rules?_accentPieces, rules?_declarationText (by decide), name]
  change Option.map _ (rules? (some ("body", [⟨"font-family", " " ++ font⟩])) endPieces) = _
  rw [background]
  rfl

/-- A declaration that goes on behind its value is not read as one of this value. -/
theorem rules?_ne_of_longer {name value selector : String} {text : List Char} {mark : Mark}
    (noColon : ':' ∉ name.toList) (longer : declarationText name value ++ [';'] <+: text)
    (rest : List (List Char × Mark)) (later : List Declaration) (others : List Sheet.Rule) :
    rules? (some (selector, [])) ((text, mark) :: rest) ≠
      some (.block selector (⟨trim name.toList, " " ++ value⟩ :: later) :: others) := by
  obtain ⟨extra, rfl⟩ := longer
  let declared : Declaration :=
    ⟨trim name.toList, String.ofList (' ' :: value.toList ++ ';' :: extra)⟩
  have declares : declaration? (declarationText name value ++ [';'] ++ extra) = some declared := by
    rw [declarationText, List.append_assoc, List.append_assoc, List.cons_append,
      declaration?_of_colon noColon]
    simp [declared]
  have differs : declared ≠ ⟨trim name.toList, " " ++ value⟩ := by
    intro same
    have sameValue := congrArg (fun declaration => declaration.value.toList.length) same
    simp [declared] at sameValue
  have notBlank : (declarationText name value ++ [';'] ++ extra).all isBlank = false := by
    rw [List.all_eq_false]
    exact ⟨':', by simp [declarationText], by decide⟩
  intro reads
  cases mark with
  | semicolon =>
      rw [rules?, declares] at reads
      obtain ⟨_, _, sameRules⟩ := exists_block_of_rules? reads
      exact differs (List.cons.inj (Rule.block.inj (List.cons.inj sameRules).1).2).1.symm
  | closing =>
      rw [rules?, notBlank, if_neg Bool.false_ne_true, declares] at reads
      obtain ⟨_, _, sameRules⟩ := Option.map_eq_some_iff.mp reads
      exact differs (List.cons.inj (Rule.block.inj (List.cons.inj sameRules).1).2).1
  | opening => cases reads

/-- A value that is read as the first of its block is contained. -/
theorem contained_of_rules? {name value selector : String} {pieces : List (List Char × Mark)}
    {front others : List Sheet.Rule} {later : List Declaration} {rest : List Char}
    (noColon : ':' ∉ name.toList) (unmarked : Unmarked value)
    (inFront : ∀ more, rules? none (pieces ++ more) =
      (rules? (some (selector, [])) more).map (front ++ ·))
    (reads : rules? none (Reading.run ⟨Lexer.blockStart, declarationText name "", pieces⟩
        (value.toList ++ ';' :: rest)).pieces =
      some (front ++ .block selector (⟨trim name.toList, " " ++ value⟩ :: later) :: others)) :
    Contained value := by
  by_cases contained : Contained value
  · exact contained
  · rcases exists_piece_of_not_contained _ _ unmarked contained rest with
      noMore | ⟨text, mark, more, isMore, longer⟩
    · have noRest := inFront []
      rw [List.append_nil] at noRest
      rw [noMore, noRest] at reads
      cases reads
    · rw [isMore, inFront] at reads
      obtain ⟨rules, isBlock, same⟩ := Option.map_eq_some_iff.mp reads
      rw [List.append_cancel_left same] at isBlock
      rw [declarationText_append] at longer
      exact absurd isBlock (rules?_ne_of_longer noColon longer _ _ _)

/-! ### The whole sheet -/

/-- The style sheet, with the semicolons behind its values on their own. -/
theorem toList_styleFile (document : Document) :
    (styleFile document).toList = styleStart.toList ++ ((accentColor document).toList ++
      ';' :: (styleMiddle.toList.tail ++ ((bodyFont document).toList ++
        ';' :: styleEnd.toList.tail))) := by
  have middle : styleMiddle.toList = ';' :: styleMiddle.toList.tail := rfl
  have last : styleEnd.toList = ';' :: styleEnd.toList.tail := rfl
  rw [styleFile, String.toList_append, String.toList_append, String.toList_append,
    String.toList_append, middle, last]
  simp only [List.append_assoc, List.cons_append, List.tail_cons]

/-- The sheet up to the font, where the accent colour is contained. -/
theorem run_accent {accent : String} (unmarked : Unmarked accent) (contained : Contained accent)
    (rest : List Char) :
    Reading.run {}
        (styleStart.toList ++ (accent.toList ++ ';' :: (styleMiddle.toList.tail ++ rest))) =
      Reading.run ⟨Lexer.blockStart, declarationText fontName "", accentPieces accent⟩ rest := by
  have value : accent.toList ++ ';' :: (styleMiddle.toList.tail ++ rest) =
      (accent.toList ++ [';']) ++ (styleMiddle.toList.tail ++ rest) := by
    rw [List.append_assoc, List.singleton_append]
  rw [Reading.run_append, run_styleStart, value, Reading.run_append,
    run_value_semicolon _ _ unmarked contained, Reading.run_append, Reading.run_behind,
    run_styleMiddle, declarationText_append, Reading.behind, accentPieces, List.append_assoc]
  rfl

section Document

variable {document : Document}

theorem read_of_contained (accent : Contained (accentColor document))
    (font : Contained (bodyFont document)) :
    Sheet.read (styleFile document) =
      some (meantRules (accentColor document) (bodyFont document)) := by
  have value : (bodyFont document).toList ++ ';' :: styleEnd.toList.tail =
      ((bodyFont document).toList ++ [';']) ++ styleEnd.toList.tail := by
    rw [List.append_assoc, List.singleton_append]
  have reading : Reading.run {} (styleFile document).toList = Reading.behind
      (accentPieces (accentColor document) ++
        [(declarationText fontName (bodyFont document), .semicolon)])
      ⟨{}, "\n".toList, endPieces⟩ := by
    rw [toList_styleFile, run_accent (unmarked_accentColor document) accent, value,
      Reading.run_append, run_value_semicolon _ _ (unmarked_bodyFont document) font,
      Reading.run_behind, run_styleEnd, declarationText_append]
  rw [Sheet.read, reading, ← rules?_fontPieces, Reading.behind, List.append_assoc]
  rfl

/-- The pieces of a sheet are those of its rules. -/
theorem rules?_of_read {text : String} {rules : List Sheet.Rule}
    (reads : Sheet.read text = some rules) :
    rules? none (Reading.run {} text.toList).pieces = some rules := by
  unfold Sheet.read at reads
  dsimp only at reads
  split at reads
  · exact reads
  · exact absurd reads nofun

theorem accent_of_read (reads : Sheet.read (styleFile document) =
    some (meantRules (accentColor document) (bodyFont document))) :
    Contained (accentColor document) := by
  have pieces := rules?_of_read reads
  rw [toList_styleFile, Reading.run_append, run_styleStart] at pieces
  exact contained_of_rules? (by decide) (unmarked_accentColor document) rules?_startPieces pieces

theorem font_of_read (accent : Contained (accentColor document))
    (reads : Sheet.read (styleFile document) =
      some (meantRules (accentColor document) (bodyFont document))) :
    Contained (bodyFont document) := by
  have pieces := rules?_of_read reads
  rw [toList_styleFile, run_accent (unmarked_accentColor document) accent] at pieces
  exact contained_of_rules? (by decide) (unmarked_bodyFont document) (rules?_accentPieces _) pieces

end Document

/-- The style sheet of a bundle is read as it is meant just where both theme values are
contained. -/
theorem read_styleFile_iff (document : Document) :
    Sheet.read (styleFile document) =
        some (meantRules (accentColor document) (bodyFont document)) ↔
      Contained (accentColor document) ∧ Contained (bodyFont document) := by
  constructor
  · intro reads
    have accent := accent_of_read reads
    exact ⟨accent, font_of_read accent reads⟩
  · rintro ⟨accent, font⟩
    exact read_of_contained accent font

/-! ### Values that are contained, and one that is not -/

/-- The characters that start nothing in plain text, and end no declaration. -/
def isHarmless (char : Char) : Bool :=
  char != '/' && char != '\\' && char != '(' && char != '[' && !isQuote char &&
    (Mark.ofChar? char).isNone

theorem step_of_isHarmless {char : Char} (harmless : isHarmless char = true) (name : List Char) :
    ∃ next, Lexer.stepPlain ['\x7d'] name char = { opened := ['\x7d'], place := .plain next } := by
  simp only [isHarmless, Bool.and_eq_true, bne_iff_ne, Bool.not_eq_true', Option.isNone_iff_eq_none,
    and_assoc] at harmless
  obtain ⟨noSlash, noBackslash, noRound, noSquare, noQuote, unmarked⟩ := harmless
  have noBrace : char ≠ '\x7b' ∧ char ≠ '\x7d' :=
    ⟨fun isBrace => absurd (isBrace ▸ unmarked) (by decide),
      fun isBrace => absurd (isBrace ▸ unmarked) (by decide)⟩
  unfold Lexer.stepPlain
  rw [if_neg noSlash, noQuote, if_neg Bool.false_ne_true, if_neg noBackslash, if_neg noRound,
    if_neg noSquare, if_neg noBrace.1, Lexer.close, if_neg noBrace.2.symm]
  repeat' split
  all_goals exact ⟨_, rfl⟩

theorem run_of_isHarmless {chars : List Char} (harmless : ∀ char ∈ chars, isHarmless char = true)
    (name : List Char) : ∃ next, Lexer.run { opened := ['\x7d'], place := .plain name } chars =
      { opened := ['\x7d'], place := .plain next } := by
  induction chars generalizing name with
  | nil => exact ⟨name, rfl⟩
  | cons char rest inductionHypothesis =>
      obtain ⟨first, others⟩ := List.forall_mem_cons.mp harmless
      obtain ⟨next, steps⟩ := step_of_isHarmless first name
      change ∃ last, Lexer.run (Lexer.stepPlain ['\x7d'] name char) rest = _
      rw [steps]
      exact inductionHypothesis others next

/-- Plain values are contained. -/
theorem contained_of_isHarmless {value : String}
    (harmless : value.toList.all isHarmless = true) : Contained value := by
  obtain ⟨name, runs⟩ := run_of_isHarmless (List.all_eq_true.mp harmless) []
  unfold Contained Lexer.blockStart
  rw [runs]
  rfl

/-- A page whose accent colour opens a comment. -/
def commented : Json.Value :=
  .object [("id", .string "d"),
    ("layoutTree", .object [("id", .string "n"), ("type", .string "page")]),
    ("theme", .object [("tokens", .object [("colors", .object [("accent", .string "/*")])])])]

/-- Validation lets the colour pass, and the sheet is not read as it is meant. -/
theorem not_read_commented :
    ∃ document, Check.validate .lenient commented = .ok document ∧
      accentColor document = "/*" ∧
      Sheet.read (styleFile document) ≠
        some (meantRules (accentColor document) (bodyFont document)) := by
  have opens : (Check.validate .lenient commented).toOption.map accentColor = some "/*" := by
    decide +kernel
  cases accepts : Check.validate .lenient commented with
  | error rejection =>
      rw [accepts] at opens
      exact absurd opens nofun
  | ok document =>
      rw [accepts] at opens
      have accent : accentColor document = "/*" := Option.some.inj opens
      refine ⟨document, rfl, accent, fun reads => ?_⟩
      have contained := accent_of_read reads
      rw [accent] at contained
      exact absurd contained (by decide)

end Wireframe.Bundle
