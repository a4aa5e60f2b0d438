import Wireframe.Document.Basic
import Wireframe.Markup.Table

/-!
Contract: the files around the markup of a document.

Owns:
- the component that holds the markup, and the page that shows it;
- the page shells, in which title, description and locale are quoted;
- the style sheet with the document's accent colour and font.

The fixed parts of a file are definitions of their own; what stands between
them is quoted by the rule of its place.
-/

namespace Wireframe.Bundle

open Json Markup

/-! ## The component -/

def componentStart : String :=
  "import React from 'react';\n" ++
  "\n" ++
  "export const GeneratedApp: React.FC = () => \x7b\n" ++
  "  return ("

def componentEnd : String :=
  "\n" ++
  "  );\n" ++
  "\x7d;\n"

def component (table : Table) (document : Document) : String :=
  componentStart ++ table.render document.layoutTree ++ componentEnd

def pageStart : String :=
  "'use client';\n" ++
  "\n"

def pageEnd : String :=
  "\n" ++
  "export default function Page() \x7b\n" ++
  "  return <GeneratedApp />;\n" ++
  "\x7d\n"

def page (table : Table) (document : Document) : String :=
  pageStart ++ component table document ++ pageEnd

def appMain : String :=
  "import React from 'react';\n" ++
  "import ReactDOM from 'react-dom/client';\n" ++
  "import \x7b GeneratedApp \x7d from './App';\n" ++
  "\n" ++
  "ReactDOM.createRoot(document.getElementById('root')!).render(<GeneratedApp />);\n"

/-! ## The page shells -/

def layoutStart : String :=
  "import './globals.css';\n" ++
  "import type \x7b Metadata \x7d from 'next';\n" ++
  "\n" ++
  "export const metadata: Metadata = \x7b\n" ++
  "  title: "

def layoutMiddle : String :=
  ",\n" ++
  "  description: "

def layoutBeforeLocale : String :=
  ",\n" ++
  "\x7d;\n" ++
  "\n" ++
  "export default function RootLayout(\x7b children \x7d: " ++
  "\x7b children: React.ReactNode \x7d) \x7b\n" ++
  "  return (\n" ++
  "    <html lang=\""

def layoutEnd : String :=
  "\">\n" ++
  "      <body>\x7bchildren\x7d</body>\n" ++
  "    </html>\n" ++
  "  );\n" ++
  "\x7d\n"

def attributeText (text : String) : String :=
  String.ofList (escapeAttribute text.toList)

/-- The layout file: title and description as string literals, the locale as an
attribute. -/
def layoutFile (document : Document) : String :=
  layoutStart ++ stringLiteral document.title ++ layoutMiddle ++
    stringLiteral (document.description.getD "") ++ layoutBeforeLocale ++
    attributeText document.locale ++ layoutEnd

def hostStart : String :=
  "<!doctype html>\n" ++
  "<html lang=\""

def hostMiddle : String :=
  "\">\n" ++
  "  <head>\n" ++
  "    <meta charset=\"UTF-8\" />\n" ++
  "    <title>"

def hostEnd : String :=
  "</title>\n" ++
  "  </head>\n" ++
  "  <body>\n" ++
  "    <div id=\"root\"></div>\n" ++
  "    <script type=\"module\" src=\"/src/main.tsx\"></script>\n" ++
  "  </body>\n" ++
  "</html>\n"

/-- The host page: the locale as an attribute, the title as text. -/
def hostFile (document : Document) : String :=
  hostStart ++ attributeText document.locale ++ hostMiddle ++
    String.ofList (escapeText document.title.toList) ++ hostEnd

/-! ## The style sheet -/

def defaultAccent : String := "#3b82f6"

def defaultFont : String := "'Inter', sans-serif"

/-- Whether a theme value may stand in the style sheet: it is not empty and holds
none of five characters. -/
def isStyleSafe (value : String) : Bool :=
  !value.isEmpty && value.toList.all fun char =>
    char != ';' && char != '\x7b' && char != '\x7d' && char != '<' && char != '>'

/-- A theme value that may stand in the style sheet, or the one that stands in
for it. -/
def safeOr (standard : String) : Option String → String
  | some value => if isStyleSafe value then value else standard
  | none => standard

/-- The accent colour: the one of that name, else the primary one. -/
def accentColor (document : Document) : String :=
  let colors := document.theme.tokens.colors
  safeOr defaultAccent ((colors.lookup "accent").or (colors.lookup "primary"))

def bodyFont (document : Document) : String :=
  safeOr defaultFont (document.theme.tokens.typography.fontFamilies.lookup "body")

/-- The style sheet up to the accent colour. -/
def styleStart : String :=
  "@tailwind base;\n" ++
  "@tailwind components;\n" ++
  "@tailwind utilities;\n" ++
  "\n" ++
  ":root \x7b\n" ++
  "  --accent: "

/-- The style sheet between accent colour and font. -/
def styleMiddle : String :=
  ";\n" ++
  "\x7d\n" ++
  "\n" ++
  "body \x7b\n" ++
  "  font-family: "

def styleEnd : String :=
  ";\n" ++
  "  background: #f8fafc;\n" ++
  "\x7d\n"

def styleFile (document : Document) : String :=
  styleStart ++ accentColor document ++ styleMiddle ++ bodyFont document ++ styleEnd

/-! ## Settings that no document changes -/

def tailwindFile : String :=
  "/** @type \x7bimport('tailwindcss').Config\x7d */\n" ++
  "module.exports = \x7b\n" ++
  "  content: ['./app/**/*.\x7bts,tsx,js,jsx\x7d', './components/**/*.\x7bts,tsx,js,jsx\x7d'],\n" ++
  "  theme: \x7b\n" ++
  "    extend: \x7b\x7d,\n" ++
  "  \x7d,\n" ++
  "  plugins: [],\n" ++
  "\x7d;\n"

def postcssFile : String :=
  "module.exports = \x7b\n" ++
  "  plugins: \x7b\n" ++
  "    tailwindcss: \x7b\x7d,\n" ++
  "    autoprefixer: \x7b\x7d,\n" ++
  "  \x7d,\n" ++
  "\x7d;\n"

end Wireframe.Bundle
