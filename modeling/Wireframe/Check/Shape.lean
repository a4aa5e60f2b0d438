import Wireframe.Check.Rule
import Wireframe.Node.Basic
import Wireframe.Document.Asset
import Wireframe.Patch.Basic

/-!
Contract: the shape rules of nodes, patches and documents.

Owns:
- the members of each object, in the order in which they are checked;
- the bounds on numbers.

Members that no rule names are not looked at.
-/

namespace Wireframe.Check

open Json

/-- A member that has to be there. -/
def required (key : String) (rule : Rule) : String × Need × Rule :=
  (key, .required, rule)

def optional (key : String) (rule : Rule) : String × Need × Rule :=
  (key, .optional, rule)

def mediaRule : Rule :=
  .object [
    ("uri", .insteadOf "url", .text),
    optional "description" .text]

def constraintsRule : Rule :=
  let align : Rule := .oneOf (Align.all.map Align.name)
  .object [
    optional "minWidth" (.number .nonNegative),
    optional "maxWidth" (.number .positive),
    optional "minHeight" (.number .nonNegative),
    optional "maxHeight" (.number .positive),
    optional "horizontalAlign" align,
    optional "verticalAlign" align,
    optional "grow" (.number .unit),
    optional "shrink" (.number .unit),
    optional "order" (.number .any)]

def layoutRule : Rule :=
  .object [
    optional "position" (.oneOf (PositionMode.all.map PositionMode.name)),
    optional "x" (.number .any),
    optional "y" (.number .any),
    optional "width" (.number .any),
    optional "height" (.number .any),
    optional "gap" (.number .any),
    optional "padding" .quad,
    optional "margin" .quad,
    optional "columns" (.number .positive),
    optional "rows" (.number .positive),
    optional "direction" (.oneOf (Direction.all.map Direction.name)),
    optional "wrap" .flag]

def borderRule : Rule :=
  .object [
    optional "color" .text,
    optional "radius" (.number .any),
    optional "width" (.number .any),
    optional "style" (.oneOf (BorderStyle.all.map BorderStyle.name))]

def typographyRule : Rule :=
  .object [
    optional "fontFamily" .text,
    optional "fontSize" (.number .any),
    optional "fontWeight" .text,
    optional "letterSpacing" (.number .any),
    optional "lineHeight" (.number .any),
    optional "textAlign" (.oneOf (TextAlign.all.map TextAlign.name))]

def styleRule : Rule :=
  .object [
    optional "variant" .text,
    optional "emphasis" (.oneOf (Emphasis.all.map Emphasis.name)),
    optional "tone" (.oneOf (Tone.all.map Tone.name)),
    optional "background" .text,
    optional "foreground" .text,
    optional "shadow" .text,
    optional "border" borderRule,
    optional "typography" typographyRule]

def stateRule : Rule :=
  .object [
    optional "name" .text,
    optional "bindings" (.map .text)]

def actionRule : Rule :=
  .object [
    required "type" (.oneOf (ActionKind.all.map ActionKind.name)),
    optional "payload" .anyObject]

def eventRule : Rule :=
  .object [
    required "id" .text,
    required "trigger" (.oneOf (Trigger.all.map Trigger.name)),
    optional "description" .text,
    required "action" actionRule]

/-- The members of a node. A partial one, the payload of a patch, may lack its
id and kind; its children may not. -/
def nodeShape (isPartial : Bool) : List (String × Need × Rule) :=
  let identity : Need := if isPartial then .optional else .required
  [ ("id", identity, .text),
    ("type", identity, .oneOf (Kind.all.map Kind.name)),
    optional "name" .text,
    optional "role" .text,
    optional "text" .text,
    optional "placeholder" .text,
    optional "media" mediaRule,
    optional "bindings" (.map .text),
    optional "constraints" constraintsRule,
    optional "layout" layoutRule,
    optional "style" styleRule,
    optional "state" stateRule,
    optional "events" (.list eventRule),
    optional "children" (.list (.node false))]

def patchRule : Rule :=
  .object [
    required "targetId" .text,
    required "op" (.oneOf (Operation.all.map Operation.name)),
    optional "payload" (.node true),
    optional "position" (.integer 0)]

def assetRule : Rule :=
  .object [
    required "id" .text,
    required "kind" (.oneOf (AssetKind.all.map AssetKind.name)),
    required "uri" .text,
    optional "metadata" .anyObject]

def dataSourceRule : Rule :=
  .object [
    required "id" .text,
    required "name" .text,
    required "type" (.oneOf (DataSourceKind.all.map DataSourceKind.name)),
    required "config" .anyObject]

def typeTokensRule : Rule :=
  .object [
    optional "fontFamilies" (.map .text),
    optional "fontSizes" (.map (.number .any))]

def tokensRule : Rule :=
  .object [
    optional "colors" (.map .text),
    optional "radii" (.map (.number .any)),
    optional "spacing" (.map (.number .any)),
    optional "typography" typeTokensRule]

def themeRule : Rule :=
  .object [
    optional "id" .text,
    optional "name" .text,
    optional "tokens" tokensRule]

def metadataRule : Rule :=
  .object [
    optional "source" (.oneOf (Origin.all.map Origin.name)),
    optional "author" .text,
    optional "tags" (.list .text),
    optional "revision" (.integer 1)]

def documentRule : Rule :=
  .object [
    required "id" .text,
    optional "version" .text,
    optional "createdAt" .instant,
    optional "locale" .text,
    optional "title" .text,
    optional "description" .text,
    required "layoutTree" (.node false),
    optional "assets" (.list assetRule),
    optional "dataSources" (.list dataSourceRule),
    optional "theme" themeRule,
    optional "metadata" metadataRule]

def rootPath : String := "$"

def violations (rule : Rule) (value : Value) : List Violation :=
  check nodeShape value rule rootPath

end Wireframe.Check
