import Wireframe.Bundle.Basic
import Wireframe.Bundle.Manifest
import Wireframe.Bundle.Shell

/-!
Contract: the bundle of a document, a function of the document, the framework
and the table of rules alone.
-/

namespace Wireframe

open Markup

namespace Bundle

/-- The files of a bundle, in the order of their paths. -/
def files (table : Table) (document : Document) : Framework → Codec.Dict String
  | .next => [
      ("app/globals.css", styleFile document),
      ("app/layout.tsx", layoutFile document),
      ("app/page.tsx", page table document),
      ("package.json", manifestFile document .next),
      ("postcss.config.js", postcssFile),
      ("tailwind.config.js", tailwindFile)]
  | .react => [
      ("index.html", hostFile document),
      ("package.json", manifestFile document .react),
      ("src/App.tsx", component table document),
      ("src/main.tsx", appMain)]

end Bundle

namespace Document

def generateWith (table : Table) (document : Document) (options : GenerateOptions) :
    CodeBundle where
  files := Bundle.files table document options.framework
  entry := options.framework.entryPath
  framework := options.framework

/-- The bundle of a document by the standard rules. -/
def generate (document : Document) (options : GenerateOptions) : CodeBundle :=
  document.generateWith .standard options

def generateFor (document : Document) (framework : String) :
    Except UnsupportedFramework CodeBundle := do
  let framework ← Framework.ofName framework
  pure (document.generate ⟨framework⟩)

end Document

end Wireframe
