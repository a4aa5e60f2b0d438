import Wireframe.Codec.Record

/-!
Contract: the visual treatment of a node.

Owns:
- `Style` with its border and typography;
- their JSON forms.
-/

namespace Wireframe

open Codec Number

/-- How much a node stands out. -/
inductive Emphasis where
  | default
  | primary
  | secondary
  | danger
  | ghost
deriving DecidableEq

namespace Emphasis

def all : List Emphasis := [.default, .primary, .secondary, .danger, .ghost]

def name : Emphasis → String
  | .default => "default"
  | .primary => "primary"
  | .secondary => "secondary"
  | .danger => "danger"
  | .ghost => "ghost"

end Emphasis

/-- The mood of a node. -/
inductive Tone where
  | neutral
  | success
  | warning
  | error
  | info
deriving DecidableEq

namespace Tone

def all : List Tone := [.neutral, .success, .warning, .error, .info]

def name : Tone → String
  | .neutral => "neutral"
  | .success => "success"
  | .warning => "warning"
  | .error => "error"
  | .info => "info"

end Tone

/-- The line of a border. -/
inductive BorderStyle where
  | solid
  | dashed
  | hidden
deriving DecidableEq

namespace BorderStyle

def all : List BorderStyle := [.solid, .dashed, .hidden]

def name : BorderStyle → String
  | .solid => "solid"
  | .dashed => "dashed"
  | .hidden => "none"

end BorderStyle

/-- The border of a node. -/
structure Border where
  color : Option String := none
  radius : Option Binary64 := none
  width : Option Binary64 := none
  style : Option BorderStyle := none
deriving BEq

namespace Border

def codec : Codec Border :=
  Codec.record "Border"
    (.cons (.optional "color" .string) <|
      .cons (.optional "radius" .double) <|
      .cons (.optional "width" .double) <|
      .cons (.optional "style" (.choice BorderStyle.name BorderStyle.all)) .nil)
    (fun (color, radius, width, style, ()) => ⟨color, radius, width, style⟩)
    (fun border => (border.color, border.radius, border.width, border.style, ()))

end Border

/-- How a text is aligned. -/
inductive TextAlign where
  | left
  | center
  | right
deriving DecidableEq

namespace TextAlign

def all : List TextAlign := [.left, .center, .right]

def name : TextAlign → String
  | .left => "left"
  | .center => "center"
  | .right => "right"

end TextAlign

/-- The type of a node's text. -/
structure Typography where
  fontFamily : Option String := none
  fontSize : Option Binary64 := none
  fontWeight : Option String := none
  letterSpacing : Option Binary64 := none
  lineHeight : Option Binary64 := none
  textAlign : Option TextAlign := none
deriving BEq

namespace Typography

def codec : Codec Typography :=
  Codec.record "Typography"
    (.cons (.optional "fontFamily" .string) <|
      .cons (.optional "fontSize" .double) <|
      .cons (.optional "fontWeight" .string) <|
      .cons (.optional "letterSpacing" .double) <|
      .cons (.optional "lineHeight" .double) <|
      .cons (.optional "textAlign" (.choice TextAlign.name TextAlign.all)) .nil)
    (fun (fontFamily, fontSize, fontWeight, letterSpacing, lineHeight, textAlign, ()) =>
      ⟨fontFamily, fontSize, fontWeight, letterSpacing, lineHeight, textAlign⟩)
    (fun typography =>
      (typography.fontFamily, typography.fontSize, typography.fontWeight,
        typography.letterSpacing, typography.lineHeight, typography.textAlign, ()))

end Typography

/-- The visual treatment of a node. -/
structure Style where
  variant : Option String := none
  emphasis : Option Emphasis := none
  tone : Option Tone := none
  background : Option String := none
  foreground : Option String := none
  border : Option Border := none
  shadow : Option String := none
  typography : Option Typography := none
deriving BEq

namespace Style

def codec : Codec Style :=
  Codec.record "NodeStyle"
    (.cons (.optional "variant" .string) <|
      .cons (.optional "emphasis" (.choice Emphasis.name Emphasis.all)) <|
      .cons (.optional "tone" (.choice Tone.name Tone.all)) <|
      .cons (.optional "background" .string) <|
      .cons (.optional "foreground" .string) <|
      .cons (.optional "border" Border.codec) <|
      .cons (.optional "shadow" .string) <|
      .cons (.optional "typography" Typography.codec) .nil)
    (fun (variant, emphasis, tone, background, foreground, border, shadow, typography, ()) =>
      ⟨variant, emphasis, tone, background, foreground, border, shadow, typography⟩)
    (fun style =>
      (style.variant, style.emphasis, style.tone, style.background, style.foreground,
        style.border, style.shadow, style.typography, ()))

end Style

end Wireframe
