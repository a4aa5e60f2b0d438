import Wireframe.Document.Basic

/-!
Contract: the built-in demonstration document, a landing page with a hero, a
button and three feature cards.
-/

namespace Wireframe.Sample

open Json Number Calendar

/-- A whole number of units. -/
private def length (value : Int) : Option Binary64 :=
  some (.ofInt value)

def callToAction : Node :=
  .mk
    { id := "cta"
      kind := .button
      text := some "开始生成"
      style := { emphasis := some .primary }
      events := [{
        id := "cta-click"
        trigger := .click
        action := { kind := .navigate, payload := some [("href", .string "/app")] }
        description := none
      }] }
    []

def hero : Node :=
  .mk
    { id := "hero"
      kind := .hero
      text := some "从草图到可运行原型"
      style := {
        typography := some {
          fontSize := length 36
          fontWeight := some "700"
          textAlign := some .center
        }
      } }
    [callToAction]

def featureCard (id : String) : Node :=
  .mk
    { id
      kind := .card
      text := some "自动解析 UI 组件并生成代码"
      style := { background := some "white", shadow := some "md" } }
    []

def features : Node :=
  .mk
    { id := "features"
      kind := .sectioning
      layout := { direction := some .row, gap := length 16 } }
    [featureCard "feature-1", featureCard "feature-2", featureCard "feature-3"]

def tree : Node :=
  .mk
    { id := "root"
      kind := .page
      name := some "LandingPage"
      layout := {
        direction := some .column
        gap := length 24
        padding := some ⟨.ofInt 32, .ofInt 32, .ofInt 32, .ofInt 32⟩
      } }
    [hero, features]

def assets : List Asset :=
  [ { id := "asset-sketch-1"
      kind := .sketch
      uri := "https://example.com/sketch.png"
      metadata := none },
    { id := "asset-transcript-1"
      kind := .transcript
      uri := "https://example.com/transcript.txt"
      metadata := some
        [("text", .string "标题写在 Hero 区域，添加一个 CTA 按钮以及三个特性卡片")] } ]

private def feature (title description : String) : Value :=
  .object [("description", .string description), ("title", .string title)]

def dataSource : DataSource where
  id := "static-content"
  name := "Static content"
  kind := .static
  config := []
  sample := some (.object [("features", .array [
    feature "草图解析" "自动检测按钮、输入框、表格等组件",
    feature "语音理解" "从语音描述中抽取主题与交互需求"])])

def theme : Theme where
  id := "default"
  name := "Demo Theme"
  tokens := {
    colors := [("accent", "#f97316"), ("primary", "#3b82f6"), ("secondary", "#1e293b")]
    radii := Theme.sizes 4 8 16
    spacing := Theme.sizes 8 16 24
    typography := {
      fontFamilies := [("body", "Inter, sans-serif"), ("heading", "DM Sans, sans-serif")]
      fontSizes := Theme.sizes 14 16 20 ++ [("xl", .ofInt 32)]
    }
  }

/-- The first instant of 2024. -/
def createdAt : Timestamp :=
  (Timestamp.ofMillis? 1704067200000).getD .epoch

/-- The demonstration document. -/
def document : Document where
  id := "demo-project"
  version := "0.1.0"
  createdAt := createdAt
  locale := "zh-CN"
  title := "Prototype Demo"
  description := some "从草图和语音描述生成的演示页面"
  layoutTree := tree
  assets := assets
  dataSources := [dataSource]
  theme := theme
  metadata := { source := .mixed, tags := ["demo", "landing"], revision := 1 }

end Wireframe.Sample
