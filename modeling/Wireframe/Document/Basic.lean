import Wireframe.Codec.Timestamp
import Wireframe.Document.Theme
import Wireframe.Document.Asset
import Wireframe.Node.Codec

/-!
Contract: documents.

Owns:
- `Document`, a component tree with its theme, assets and data sources;
- its JSON form, with the value of every member that may be absent;
- the text form, and the canonical text that a fingerprint is taken of.
-/

namespace Wireframe

open Codec Calendar

/-- A document. -/
structure Document where
  id : String
  version : String
  createdAt : Timestamp
  locale : String
  title : String
  description : Option String
  layoutTree : Node
  assets : List Asset
  dataSources : List DataSource
  theme : Theme
  metadata : Metadata

namespace Document

def defaultVersion : String := "0.1.0"

def defaultLocale : String := "zh-CN"

def defaultTitle : String := "Generated Prototype"

/-- Equality of documents, in which numbers are compared numerically. -/
instance : BEq Document where
  beq left right :=
    left.id == right.id && left.version == right.version &&
      decide (left.createdAt = right.createdAt) && left.locale == right.locale &&
      left.title == right.title && left.description == right.description &&
      left.layoutTree == right.layoutTree && left.assets == right.assets &&
      left.dataSources == right.dataSources && left.theme == right.theme &&
      left.metadata == right.metadata

def codec : Codec Document :=
  Codec.record "UiIr"
    (.cons (.needed "id" .string) <|
      .cons (.defaulting "version" .string defaultVersion) <|
      .cons (.defaulting "createdAt" .timestamp .epoch) <|
      .cons (.defaulting "locale" .string defaultLocale) <|
      .cons (.defaulting "title" .string defaultTitle) <|
      .cons (.optional "description" .string) <|
      .cons (.needed "layoutTree" Node.codec) <|
      .cons (.defaulting "assets" (.list Asset.codec) []) <|
      .cons (.defaulting "dataSources" (.list DataSource.codec) []) <|
      .cons (.defaulting "theme" Theme.codec .baseline) <|
      .cons (.defaulting "metadata" Metadata.codec {}) .nil)
    (fun (id, version, createdAt, locale, title, description, layoutTree, assets,
        dataSources, theme, metadata, ()) =>
      ⟨id, version, createdAt, locale, title, description, layoutTree, assets, dataSources,
        theme, metadata⟩)
    (fun document =>
      (document.id, document.version, document.createdAt, document.locale, document.title,
        document.description, document.layoutTree, document.assets, document.dataSources,
        document.theme, document.metadata, ()))

/-- The value of a document with every object's keys in order. -/
def toValue (document : Document) : Json.Value :=
  (codec.encode document).sortKeys

def canonical (document : Document) : String :=
  codec.canonical document

/-- The text form of a document, its members in the order of the schema. -/
def serialize (document : Document) : String :=
  (codec.encode document).pretty

end Document

end Wireframe
