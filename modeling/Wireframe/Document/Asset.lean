import Wireframe.Codec.Record

/-!
Contract: what a document refers to besides its tree: assets, data sources, and
the data about itself.
-/

namespace Wireframe

open Codec Json

/-- What an asset is. -/
inductive AssetKind where
  | image
  | audio
  | transcript
  | sketch
deriving DecidableEq

namespace AssetKind

def all : List AssetKind := [.image, .audio, .transcript, .sketch]

def name : AssetKind → String
  | .image => "image"
  | .audio => "audio"
  | .transcript => "transcript"
  | .sketch => "sketch"

end AssetKind

/-- A file that belongs to a document. -/
structure Asset where
  id : String
  kind : AssetKind
  uri : String
  metadata : Option (List (String × Value))
deriving BEq

namespace Asset

def codec : Codec Asset :=
  Codec.record "Asset"
    (.cons (.needed "id" .string) <|
      .cons (.needed "kind" (.choice AssetKind.name AssetKind.all)) <|
      .cons (.needed "uri" .string) <|
      .cons (.optional "metadata" .jsonObject) .nil)
    (fun (id, kind, uri, metadata, ()) => ⟨id, kind, uri, metadata⟩)
    (fun asset => (asset.id, asset.kind, asset.uri, asset.metadata, ()))

end Asset

/-- Where a data source takes its data from. -/
inductive DataSourceKind where
  | static
  | rest
  | graphql
  | supabase
  | airtable
  | custom
deriving DecidableEq

namespace DataSourceKind

def all : List DataSourceKind := [.static, .rest, .graphql, .supabase, .airtable, .custom]

def name : DataSourceKind → String
  | .static => "static"
  | .rest => "rest"
  | .graphql => "graphql"
  | .supabase => "supabase"
  | .airtable => "airtable"
  | .custom => "custom"

end DataSourceKind

/-- A source of data with its free settings and a sample. -/
structure DataSource where
  id : String
  name : String
  kind : DataSourceKind
  config : List (String × Value)
  sample : Option Value
deriving BEq

namespace DataSource

def codec : Codec DataSource :=
  Codec.record "DataSource"
    (.cons (.needed "id" .string) <|
      .cons (.needed "name" .string) <|
      .cons (.needed "type" (.choice DataSourceKind.name DataSourceKind.all)) <|
      .cons (.needed "config" .jsonObject) <|
      .cons (.optional "sample" .json) .nil)
    (fun (id, name, kind, config, sample, ()) => ⟨id, name, kind, config, sample⟩)
    (fun source => (source.id, source.name, source.kind, source.config, source.sample, ()))

end DataSource

/-- What a document was made from. -/
inductive Origin where
  | sketch
  | voice
  | mixed
deriving DecidableEq

namespace Origin

def all : List Origin := [.sketch, .voice, .mixed]

def name : Origin → String
  | .sketch => "sketch"
  | .voice => "voice"
  | .mixed => "mixed"

end Origin

/-- Data about a document. The revision is counted by whoever edits it. -/
structure Metadata where
  source : Origin := .mixed
  author : Option String := none
  tags : List String := []
  revision : UInt64 := 1
deriving BEq

namespace Metadata

def codec : Codec Metadata :=
  Codec.record "DocumentMetadata"
    (.cons (.defaulting "source" (.choice Origin.name Origin.all) .mixed) <|
      .cons (.optional "author" .string) <|
      .cons (.defaulting "tags" (.list .string) []) <|
      .cons (.defaulting "revision" (.natural "u64") 1) .nil)
    (fun (source, author, tags, revision, ()) => ⟨source, author, tags, revision⟩)
    (fun metadata =>
      (metadata.source, metadata.author, metadata.tags, metadata.revision, ()))

end Metadata

end Wireframe
