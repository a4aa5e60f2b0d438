import Wireframe.Proofs.Check.Records
import Wireframe.Proofs.Check.Sound

/-!
Contract: agreement of the parts of nodes and documents.

Owns:
- for every record but nodes, patches and documents, that its rule and its codec
  agree on the sound values.

A record's members are agreed on one by one, in the order in which they are
written; the rule names them in an order of its own.
-/

namespace Wireframe

open Json Codec Check

section Parts

variable {depth : Nat}

/-! ### Names -/

theorem Kind.agrees :
    Agrees depth (.oneOf (Kind.all.map Kind.name)) Kind.codec fun _ => True :=
  agrees_oneOf Kind.name Kind.all fun kind => by cases kind <;> rfl

theorem Align.agrees :
    Agrees depth (.oneOf (Align.all.map Align.name)) (.choice Align.name Align.all)
      fun _ => True :=
  agrees_oneOf Align.name Align.all fun align => by cases align <;> rfl

theorem PositionMode.agrees :
    Agrees depth (.oneOf (PositionMode.all.map PositionMode.name))
      (.choice PositionMode.name PositionMode.all) fun _ => True :=
  agrees_oneOf PositionMode.name PositionMode.all fun mode => by cases mode <;> rfl

theorem Direction.agrees :
    Agrees depth (.oneOf (Direction.all.map Direction.name))
      (.choice Direction.name Direction.all) fun _ => True :=
  agrees_oneOf Direction.name Direction.all fun direction => by cases direction <;> rfl

theorem BorderStyle.agrees :
    Agrees depth (.oneOf (BorderStyle.all.map BorderStyle.name))
      (.choice BorderStyle.name BorderStyle.all) fun _ => True :=
  agrees_oneOf BorderStyle.name BorderStyle.all fun style => by cases style <;> rfl

theorem TextAlign.agrees :
    Agrees depth (.oneOf (TextAlign.all.map TextAlign.name))
      (.choice TextAlign.name TextAlign.all) fun _ => True :=
  agrees_oneOf TextAlign.name TextAlign.all fun align => by cases align <;> rfl

theorem Emphasis.agrees :
    Agrees depth (.oneOf (Emphasis.all.map Emphasis.name))
      (.choice Emphasis.name Emphasis.all) fun _ => True :=
  agrees_oneOf Emphasis.name Emphasis.all fun emphasis => by cases emphasis <;> rfl

theorem Tone.agrees :
    Agrees depth (.oneOf (Tone.all.map Tone.name)) (.choice Tone.name Tone.all)
      fun _ => True :=
  agrees_oneOf Tone.name Tone.all fun tone => by cases tone <;> rfl

theorem ActionKind.agrees :
    Agrees depth (.oneOf (ActionKind.all.map ActionKind.name))
      (.choice ActionKind.name ActionKind.all) fun _ => True :=
  agrees_oneOf ActionKind.name ActionKind.all fun kind => by cases kind <;> rfl

theorem Trigger.agrees :
    Agrees depth (.oneOf (Trigger.all.map Trigger.name))
      (.choice Trigger.name Trigger.all) fun _ => True :=
  agrees_oneOf Trigger.name Trigger.all fun trigger => by cases trigger <;> rfl

theorem Operation.agrees :
    Agrees depth (.oneOf (Operation.all.map Operation.name))
      (.choice Operation.name Operation.all) fun _ => True :=
  agrees_oneOf Operation.name Operation.all fun operation => by cases operation <;> rfl

theorem AssetKind.agrees :
    Agrees depth (.oneOf (AssetKind.all.map AssetKind.name))
      (.choice AssetKind.name AssetKind.all) fun _ => True :=
  agrees_oneOf AssetKind.name AssetKind.all fun kind => by cases kind <;> rfl

theorem DataSourceKind.agrees :
    Agrees depth (.oneOf (DataSourceKind.all.map DataSourceKind.name))
      (.choice DataSourceKind.name DataSourceKind.all) fun _ => True :=
  agrees_oneOf DataSourceKind.name DataSourceKind.all fun kind => by cases kind <;> rfl

theorem Origin.agrees :
    Agrees depth (.oneOf (Origin.all.map Origin.name)) (.choice Origin.name Origin.all)
      fun _ => True :=
  agrees_oneOf Origin.name Origin.all fun origin => by cases origin <;> rfl

/-! ### Parts of nodes -/

theorem Media.agrees : Agrees depth mediaRule Media.codec fun _ => True := by
  apply Agrees.congr
  · apply agrees_record "Media" (by decide) (by decide) (by decide) (fun _ => rfl)
      (fun _ => rfl)
    intro inner _
    exact .cons (fieldAgrees_aliased agrees_text rfl) <|
      .cons (fieldAgrees_optional agrees_text rfl) .nil
  · intro media
    simp

theorem Constraints.agrees :
    Agrees depth constraintsRule Constraints.codec Constraints.Sound := by
  apply Agrees.congr
  · apply agrees_record "NodeConstraints" (by decide) (by decide) (by decide)
      (fun _ => rfl) (fun _ => rfl)
    intro inner _
    exact .cons (fieldAgrees_optional (agrees_number .nonNegative) rfl) <|
      .cons (fieldAgrees_optional (agrees_number .positive) rfl) <|
      .cons (fieldAgrees_optional (agrees_number .nonNegative) rfl) <|
      .cons (fieldAgrees_optional (agrees_number .positive) rfl) <|
      .cons (fieldAgrees_optional Align.agrees rfl) <|
      .cons (fieldAgrees_optional Align.agrees rfl) <|
      .cons (fieldAgrees_optional (agrees_number .unit) rfl) <|
      .cons (fieldAgrees_optional (agrees_number .unit) rfl) <|
      .cons (fieldAgrees_optional (agrees_number .any) rfl) .nil
  · intro constraints
    constructor
    · rintro ⟨minWidth, maxWidth, minHeight, maxHeight, -, -, grow, shrink, -⟩
      exact ⟨minWidth, maxWidth, minHeight, maxHeight, grow, shrink⟩
    · rintro ⟨minWidth, maxWidth, minHeight, maxHeight, grow, shrink⟩
      exact ⟨minWidth, maxWidth, minHeight, maxHeight, fun _ _ => trivial,
        fun _ _ => trivial, grow, shrink, fun _ _ => rfl, trivial⟩

theorem Layout.agrees : Agrees depth layoutRule Layout.codec Layout.Sound := by
  apply Agrees.congr
  · apply agrees_record "NodeLayout" (by decide) (by decide) (by decide)
      (fun _ => rfl) (fun _ => rfl)
    intro inner _
    exact .cons (fieldAgrees_optional PositionMode.agrees rfl) <|
      .cons (fieldAgrees_optional (agrees_number .any) rfl) <|
      .cons (fieldAgrees_optional (agrees_number .any) rfl) <|
      .cons (fieldAgrees_optional (agrees_number .any) rfl) <|
      .cons (fieldAgrees_optional (agrees_number .any) rfl) <|
      .cons (fieldAgrees_optional agrees_quad rfl) <|
      .cons (fieldAgrees_optional agrees_quad rfl) <|
      .cons (fieldAgrees_optional (agrees_number .any) rfl) <|
      .cons (fieldAgrees_optional (agrees_number .positive) rfl) <|
      .cons (fieldAgrees_optional (agrees_number .positive) rfl) <|
      .cons (fieldAgrees_optional Direction.agrees rfl) <|
      .cons (fieldAgrees_optional agrees_flag rfl) .nil
  · intro layout
    constructor
    · rintro ⟨-, -, -, -, -, -, -, -, columns, rows, -⟩
      exact ⟨columns, rows⟩
    · rintro ⟨columns, rows⟩
      exact ⟨fun _ _ => trivial, fun _ _ => rfl, fun _ _ => rfl, fun _ _ => rfl,
        fun _ _ => rfl, fun _ _ => trivial, fun _ _ => trivial, fun _ _ => rfl, columns, rows,
        fun _ _ => trivial, fun _ _ => trivial, trivial⟩

theorem Border.agrees : Agrees depth borderRule Border.codec fun _ => True := by
  apply Agrees.congr
  · apply agrees_record "Border" (by decide) (by decide) (by decide) (fun _ => rfl)
      (fun _ => rfl)
    intro inner _
    exact .cons (fieldAgrees_optional agrees_text rfl) <|
      .cons (fieldAgrees_optional (agrees_number .any) rfl) <|
      .cons (fieldAgrees_optional (agrees_number .any) rfl) <|
      .cons (fieldAgrees_optional BorderStyle.agrees rfl) .nil
  · intro border
    simp [Bound.admits]

theorem Typography.agrees : Agrees depth typographyRule Typography.codec fun _ => True := by
  apply Agrees.congr
  · apply agrees_record "Typography" (by decide) (by decide) (by decide)
      (fun _ => rfl) (fun _ => rfl)
    intro inner _
    exact .cons (fieldAgrees_optional agrees_text rfl) <|
      .cons (fieldAgrees_optional (agrees_number .any) rfl) <|
      .cons (fieldAgrees_optional agrees_text rfl) <|
      .cons (fieldAgrees_optional (agrees_number .any) rfl) <|
      .cons (fieldAgrees_optional (agrees_number .any) rfl) <|
      .cons (fieldAgrees_optional TextAlign.agrees rfl) .nil
  · intro typography
    simp [Bound.admits]

theorem Style.agrees : Agrees depth styleRule Style.codec fun _ => True := by
  apply Agrees.congr
  · apply agrees_record "NodeStyle" (by decide) (by decide) (by decide) (fun _ => rfl)
      (fun _ => rfl)
    intro inner _
    exact .cons (fieldAgrees_optional agrees_text rfl) <|
      .cons (fieldAgrees_optional Emphasis.agrees rfl) <|
      .cons (fieldAgrees_optional Tone.agrees rfl) <|
      .cons (fieldAgrees_optional agrees_text rfl) <|
      .cons (fieldAgrees_optional agrees_text rfl) <|
      .cons (fieldAgrees_optional Border.agrees rfl) <|
      .cons (fieldAgrees_optional agrees_text rfl) <|
      .cons (fieldAgrees_optional Typography.agrees rfl) .nil
  · intro style
    simp

theorem agrees_texts :
    Agrees depth (.map .text) (.dict .string) fun entries => Value.Ascending entries := by
  apply Agrees.congr
  · exact agrees_map fun _ _ => agrees_text
  · intro entries
    simp

theorem agrees_numbers :
    Agrees depth (.map (.number .any)) (.dict .double)
      fun entries => Value.Ascending entries := by
  apply Agrees.congr
  · exact agrees_map fun _ _ => agrees_number .any
  · intro entries
    simp [Bound.admits]

theorem State.agrees : Agrees depth stateRule State.codec State.Sound := by
  apply Agrees.congr
  · apply agrees_record "NodeState" (by decide) (by decide) (by decide) (fun _ => rfl)
      (fun _ => rfl)
    intro inner _
    exact .cons (fieldAgrees_optional agrees_text rfl) <|
      .cons (fieldAgrees_free rfl) <|
      .cons (fieldAgrees_unlessEmpty agrees_texts rfl List.Pairwise.nil) .nil
  · intro state
    constructor
    · rintro ⟨-, initialValue, bindings, -⟩
      exact ⟨initialValue, bindings⟩
    · rintro ⟨initialValue, bindings⟩
      exact ⟨fun _ _ => trivial, initialValue, bindings, trivial⟩

theorem Action.agrees : Agrees depth actionRule Action.codec Action.Sound := by
  apply Agrees.congr
  · apply agrees_record "EventAction" (by decide) (by decide) (by decide)
      (fun _ => rfl) (fun _ => rfl)
    intro inner _
    exact .cons (fieldAgrees_needed ActionKind.agrees rfl) <|
      .cons (fieldAgrees_optional agrees_anyObject rfl) .nil
  · intro action
    constructor
    · rintro ⟨-, payload, -⟩
      exact payload
    · intro payload
      exact ⟨trivial, payload, trivial⟩

theorem Event.agrees : Agrees depth eventRule Event.codec Event.Sound := by
  apply Agrees.congr
  · apply agrees_record "NodeEvent" (by decide) (by decide) (by decide) (fun _ => rfl)
      (fun _ => rfl)
    intro inner _
    exact .cons (fieldAgrees_needed agrees_text rfl) <|
      .cons (fieldAgrees_needed Trigger.agrees rfl) <|
      .cons (fieldAgrees_needed Action.agrees rfl) <|
      .cons (fieldAgrees_optional agrees_text rfl) .nil
  · intro event
    constructor
    · rintro ⟨-, -, action, -⟩
      exact action
    · intro action
      exact ⟨trivial, trivial, action, fun _ _ => trivial, trivial⟩

/-! ### Parts of documents -/

/-- Defaults are written out, so that the tokens of a theme need room below them. -/
theorem TypeTokens.agrees (room : 2 ≤ depth) :
    Agrees depth typeTokensRule TypeTokens.codec TypeTokens.Sound := by
  apply Agrees.congr
  · apply agrees_record "TypographyTokens" (by decide) (by decide) (by decide)
      (fun _ => rfl) (fun _ => rfl)
    intro inner outer
    have deep : 1 ≤ inner := by omega
    exact .cons (fieldAgrees_defaulting agrees_texts rfl List.Pairwise.nil deep) <|
      .cons (fieldAgrees_defaulting agrees_numbers rfl List.Pairwise.nil deep) .nil
  · intro tokens
    constructor
    · rintro ⟨fontFamilies, fontSizes, -⟩
      exact ⟨fontFamilies, fontSizes⟩
    · rintro ⟨fontFamilies, fontSizes⟩
      exact ⟨fontFamilies, fontSizes, trivial⟩

theorem Tokens.agrees (room : 3 ≤ depth) :
    Agrees depth tokensRule Tokens.codec Tokens.Sound := by
  apply Agrees.congr
  · apply agrees_record "ThemeTokens" (by decide) (by decide) (by decide)
      (fun _ => rfl) (fun _ => rfl)
    intro inner outer
    have roomInside : 2 ≤ inner := by omega
    have deep : 1 ≤ inner := by omega
    exact .cons (fieldAgrees_defaulting agrees_texts rfl List.Pairwise.nil deep) <|
      .cons (fieldAgrees_defaulting agrees_numbers rfl List.Pairwise.nil deep) <|
      .cons (fieldAgrees_defaulting agrees_numbers rfl List.Pairwise.nil deep) <|
      .cons (fieldAgrees_defaulting (TypeTokens.agrees roomInside) rfl
        ⟨List.Pairwise.nil, List.Pairwise.nil⟩ roomInside) .nil
  · intro tokens
    constructor
    · rintro ⟨colors, radii, spacing, typography, -⟩
      exact ⟨colors, radii, spacing, typography⟩
    · rintro ⟨colors, radii, spacing, typography⟩
      exact ⟨colors, radii, spacing, typography, trivial⟩

theorem Theme.agrees (room : 4 ≤ depth) :
    Agrees depth themeRule Theme.codec Theme.Sound := by
  apply Agrees.congr
  · apply agrees_record "Theme" (by decide) (by decide) (by decide) (fun _ => rfl)
      (fun _ => rfl)
    intro inner outer
    have roomInside : 3 ≤ inner := by omega
    exact .cons (fieldAgrees_defaulting agrees_text rfl trivial (Nat.zero_le _)) <|
      .cons (fieldAgrees_defaulting agrees_text rfl trivial (Nat.zero_le _)) <|
      .cons (fieldAgrees_defaulting (Tokens.agrees roomInside) rfl
        ⟨List.Pairwise.nil, List.Pairwise.nil, List.Pairwise.nil, List.Pairwise.nil,
          List.Pairwise.nil⟩ roomInside) .nil
  · intro theme
    constructor
    · rintro ⟨-, -, tokens, -⟩
      exact tokens
    · intro tokens
      exact ⟨trivial, trivial, tokens, trivial⟩

theorem Asset.agrees : Agrees depth assetRule Asset.codec Asset.Sound := by
  apply Agrees.congr
  · apply agrees_record "Asset" (by decide) (by decide) (by decide) (fun _ => rfl)
      (fun _ => rfl)
    intro inner _
    exact .cons (fieldAgrees_needed agrees_text rfl) <|
      .cons (fieldAgrees_needed AssetKind.agrees rfl) <|
      .cons (fieldAgrees_needed agrees_text rfl) <|
      .cons (fieldAgrees_optional agrees_anyObject rfl) .nil
  · intro asset
    constructor
    · rintro ⟨-, -, -, metadata, -⟩
      exact metadata
    · intro metadata
      exact ⟨trivial, trivial, trivial, metadata, trivial⟩

theorem DataSource.agrees : Agrees depth dataSourceRule DataSource.codec DataSource.Sound := by
  apply Agrees.congr
  · apply agrees_record "DataSource" (by decide) (by decide) (by decide)
      (fun _ => rfl) (fun _ => rfl)
    intro inner _
    exact .cons (fieldAgrees_needed agrees_text rfl) <|
      .cons (fieldAgrees_needed agrees_text rfl) <|
      .cons (fieldAgrees_needed DataSourceKind.agrees rfl) <|
      .cons (fieldAgrees_needed agrees_anyObject rfl) <|
      .cons (fieldAgrees_free rfl) .nil
  · intro source
    constructor
    · rintro ⟨-, -, -, config, sample, -⟩
      exact ⟨config, sample⟩
    · rintro ⟨config, sample⟩
      exact ⟨trivial, trivial, trivial, config, sample, trivial⟩

theorem Metadata.agrees (room : 2 ≤ depth) :
    Agrees depth metadataRule Metadata.codec Metadata.Sound := by
  apply Agrees.congr
  · apply agrees_record "DocumentMetadata" (by decide) (by decide) (by decide)
      (fun _ => rfl) (fun _ => rfl)
    intro inner outer
    have deep : 1 ≤ inner := by omega
    exact .cons (fieldAgrees_defaulting Origin.agrees rfl trivial (Nat.zero_le _)) <|
      .cons (fieldAgrees_optional agrees_text rfl) <|
      .cons (fieldAgrees_defaulting (agrees_list fun _ _ => agrees_text) rfl
        (List.forall_mem_nil _) deep) <|
      .cons (fieldAgrees_defaulting (agrees_integer 1 "u64") rfl (by decide)
        (Nat.zero_le _)) .nil
  · intro metadata
    constructor
    · rintro ⟨-, -, -, revision, -⟩
      exact revision
    · intro revision
      exact ⟨trivial, fun _ _ => trivial, fun _ _ => trivial, revision, trivial⟩

end Parts

end Wireframe
