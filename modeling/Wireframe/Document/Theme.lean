import Wireframe.Codec.Record

/-!
Contract: the theme of a document, named colours, lengths and fonts.

Owns:
- `Theme` and its JSON form;
- `Theme.baseline`, the theme of a document that carries none.
-/

namespace Wireframe

open Codec Number

/-- Named fonts and font sizes. -/
structure TypeTokens where
  fontFamilies : Codec.Dict String := []
  fontSizes : Codec.Dict Binary64 := []
deriving BEq

namespace TypeTokens

def codec : Codec TypeTokens :=
  Codec.record "TypographyTokens"
    (.cons (.defaulting "fontFamilies" (.dict .string) []) <|
      .cons (.defaulting "fontSizes" (.dict .double) []) .nil)
    (fun (fontFamilies, fontSizes, ()) => ⟨fontFamilies, fontSizes⟩)
    (fun tokens => (tokens.fontFamilies, tokens.fontSizes, ()))

end TypeTokens

/-- Named colours, radii, spaces and fonts. -/
structure Tokens where
  colors : Codec.Dict String := []
  radii : Codec.Dict Binary64 := []
  spacing : Codec.Dict Binary64 := []
  typography : TypeTokens := {}
deriving BEq

namespace Tokens

def codec : Codec Tokens :=
  Codec.record "ThemeTokens"
    (.cons (.defaulting "colors" (.dict .string) []) <|
      .cons (.defaulting "radii" (.dict .double) []) <|
      .cons (.defaulting "spacing" (.dict .double) []) <|
      .cons (.defaulting "typography" TypeTokens.codec {}) .nil)
    (fun (colors, radii, spacing, typography, ()) => ⟨colors, radii, spacing, typography⟩)
    (fun tokens => (tokens.colors, tokens.radii, tokens.spacing, tokens.typography, ()))

end Tokens

/-- A named set of tokens. -/
structure Theme where
  id : String
  name : String
  tokens : Tokens
deriving BEq

namespace Theme

def sizes (small medium large : Int) : Codec.Dict Binary64 :=
  [("lg", .ofInt large), ("md", .ofInt medium), ("sm", .ofInt small)]

def defaultId : String := "default"

def defaultName : String := "Default Theme"

def baseline : Theme where
  id := defaultId
  name := defaultName
  tokens := {
    colors := [("background", "#f8fafc"), ("foreground", "#0f172a"), ("primary", "#3b82f6")]
    radii := sizes 4 8 16
    spacing := sizes 8 16 24
    typography := {
      fontFamilies := [("body", "Inter, sans-serif")]
      fontSizes := sizes 14 16 20
    }
  }

def codec : Codec Theme :=
  Codec.record "Theme"
    (.cons (.defaulting "id" .string defaultId) <|
      .cons (.defaulting "name" .string defaultName) <|
      .cons (.defaulting "tokens" Tokens.codec {}) .nil)
    (fun (id, name, tokens, ()) => ⟨id, name, tokens⟩)
    (fun theme => (theme.id, theme.name, theme.tokens, ()))

end Theme

end Wireframe
