import DocTransfer.Language.Style
import DocTransfer.Path
import DocTransfer.Text.Lower

/-! # Target languages

The one table that takes a file extension to what is known of a language: how its files are read,
what it is called in a prompt, and which style its comments follow. -/

namespace DocTransfer

/-- A language that documentation can be carried over to. -/
inductive Language where
  | csharp
  | cpp
  | c
  | header
  | javascript
  | typescript
  | tsx
  | actionscript
  | haxe
  deriving DecidableEq, Repr

/-- How the declarations of a file are read. -/
inductive Grammar where
  | cppHeader
  | csharp
  | typescript
  | tsx
  | javascript
  deriving DecidableEq, Repr

namespace Language

/-- The language of a file extension in lower case and without dots. -/
def ofName? : String → Option Language
  | "cs" => some .csharp
  | "cpp" | "cc" | "cxx" => some .cpp
  | "c" => some .c
  | "h" | "hpp" | "hxx" => some .header
  | "js" | "mjs" => some .javascript
  | "ts" => some .typescript
  | "tsx" => some .tsx
  | "as" => some .actionscript
  | "hx" => some .haxe
  | _ => none

/-- The language of a file extension; leading dots and case do not count. -/
def ofExtension? (ext : List Char) : Option Language :=
  ofName? (String.ofList (Text.lowerAll (ext.dropWhile (· == '.'))))

/-- The language of a file, by its extension. -/
def ofPath? (path : List Char) : Option Language :=
  (Path.extension? path).bind ofExtension?

/-- How declarations are read. Translation units keep theirs in headers, and Haxe declares types
much as TypeScript does. -/
def grammar? : Language → Option Grammar
  | .header => some .cppHeader
  | .csharp => some .csharp
  | .typescript | .haxe => some .typescript
  | .tsx => some .tsx
  | .javascript => some .javascript
  | .cpp | .c | .actionscript => none

/-- The identifier of a language. -/
def id : Language → String
  | .csharp => "csharp"
  | .cpp => "cpp"
  | .c => "c"
  | .header => "header"
  | .javascript => "javascript"
  | .typescript => "typescript"
  | .tsx => "tsx"
  | .actionscript => "actionscript"
  | .haxe => "haxe"

/-- What a language is called in prompts. -/
def displayName : Language → String
  | .csharp => "C#"
  | .cpp => "C++"
  | .c => "C"
  | .header => "C/C++ Header"
  | .javascript => "JavaScript"
  | .typescript | .tsx => "TypeScript"
  | .actionscript => "ActionScript"
  | .haxe => "Haxe"

/-- The word after the opening fence of a code block. -/
def fence : Language → String
  | .csharp => "csharp"
  | .cpp | .header => "cpp"
  | .c => "c"
  | .javascript => "javascript"
  | .typescript | .tsx => "typescript"
  | .actionscript => "actionscript"
  | .haxe => "haxe"

/-- The style of documentation comments. -/
def guide : Language → String
  | .csharp => xmlGuide
  | .cpp | .c | .header => doxygenGuide
  | .javascript | .typescript | .tsx => jsdocGuide
  | .haxe => haxeGuide
  | .actionscript => plainGuide

/-- The style of documentation comments in a file. -/
def guideFor (path : List Char) : String :=
  ((ofPath? path).map guide).getD plainGuide

end Language

/-- The identifier of a way of reading. -/
def Grammar.id : Grammar → String
  | .cppHeader => "CppHeader"
  | .csharp => "CSharp"
  | .typescript => "TypeScript"
  | .tsx => "Tsx"
  | .javascript => "JavaScript"

end DocTransfer
