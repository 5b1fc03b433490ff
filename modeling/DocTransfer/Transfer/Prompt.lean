import DocTransfer.Language
import DocTransfer.Matching.Basic
import DocTransfer.Text.Blank

/-! # Prompts

The three questions put to a model about a file. Source code goes in as it is. -/

namespace DocTransfer.Transfer

open DocTransfer.Language Matching

/-- What prompts say about a file and its language. -/
structure Target where
  language : String
  fence : String
  guide : String
  fileName : String

/-- The file at a path. -/
def Target.of (path : String) : Target :=
  let language := ofPath? path.toList
  { language := (language.map displayName).getD "Unknown",
    fence := (language.map Language.fence).getD "",
    guide := Text.trimmed (guideFor path.toList),
    fileName := ((Path.fileName? path.toList).map String.ofList).getD path }

namespace Prompt

/-- Which Java types correspond to the types declared in a file? -/
def mapping (names : List String) (summary : List Summary) (path : String) : String :=
  let t := Target.of path
  textOf [
   "# Task: Map " ++ t.language ++ " Types to Java Types",
   "",
   "## Source Types",
   "I need to find the Java equivalents for these " ++ t.language ++ " types from file '" ++ t.fileName ++ "':",
   "```",
   String.intercalate "\n" names,
   "```",
   "",
   "## Java Structure Summary",
   "This is a summary of all Java types:",
   "",
   "```json",
   Json.pretty (.array (summary.map Summary.toJson)),
   "```",
   "",
   "## Task: Identify Matching Java Types",
   "",
   "Analyze the source types and find their matching Java counterparts. There may not be a 1:1 mapping for every type.",
   "For each source type, determine the fully qualified Java type name (if a match exists).",
   "",
   "Rules for matching:",
   "1. Match based on type name similarity (exact matches are ideal)",
   "2. Consider name variations between languages (e.g., camelCase vs PascalCase, prefixes such as `sp` in C APIs)",
   "3. Nested Java types are listed with their enclosing type in the name (e.g., `Outer.Inner`)",
   "4. Some source types might not have Java counterparts (these can be omitted)",
   "",
   "Return ONLY a JSON array of fully qualified Java type names that are relevant to the source types:",
   "",
   "```json",
   "[",
   "  \"com.example.package.JavaType1\",",
   "  \"com.example.package.JavaType2\"",
   "]",
   "```",
   "",
   "DO NOT include any explanation or additional text - just the JSON array."]

/-- Which edits document a file, given the documentation of the matching Java types? -/
def documentation (code : String) (docs : List TypeDocs) (path : String) : String :=
  let t := Target.of path
  textOf [
   "# Task: Transfer Documentation from Java to " ++ t.language ++ " Source File (" ++ t.fileName ++ ")",
   "",
   "## Source Code",
   "```" ++ t.fence,
   code,
   "```",
   "",
   "## Java Documentation",
   "Below is the relevant Java documentation for this codebase. Use this to add and update documentation in the source file:",
   "",
   "```json",
   Json.pretty (.array (docs.map TypeDocs.toJson)),
   "```",
   "",
   "## Documentation Style for " ++ t.language,
   t.guide,
   "",
   "## Task: Generate Documentation Edits",
   "",
   "Your task is to identify elements in the source code that need documentation and create edits to add and update that documentation.",
   "",
   "For EACH element that needs documentation:",
   "1. Identify the source element (class, method, property, etc.)",
   "2. Find the matching Java documentation",
   "3. Generate documentation in the appropriate style for " ++ t.language,
   "4. Output an edit with \"oldString\" (original code) and \"newString\" (with documentation added or updated)",
   "",
   "CRITICAL REQUIREMENTS:",
   "- NEVER modify actual code - only add or update documentation comments",
   "- UPDATE the existing documentation if it already exists",
   "- Include enough context in \"oldString\" to ensure a unique match",
   "- Follow the target language's documentation style guide",
   "- Only add documentation for elements that have corresponding Java documentation",
   "- DO NOT add parameter documentation if the Java doc doesn't include it",
   "- DO NOT add return documentation if the Java doc doesn't include it",
   "- DO NOT duplicate documentation",
   "- PRESERVE the exact indentation of the original code",
   "- MATCH the indentation of documentation comments to the code they document",
   "",
   "Return your response as a JSON array of edit objects:",
   "",
   "```json",
   "[",
   "  \x7b",
   "    \"oldString\": \"    public class Skeleton \x7b\",",
   "    \"newString\": \"    /// <summary>\\n    /// Stores and manipulates the bones of a skeleton.\\n    /// </summary>\\n    public class Skeleton \x7b\"",
   "  \x7d,",
   "  \x7b",
   "    \"oldString\": \"        public Bone FindBone(string boneName) \x7b\",",
   "    \"newString\": \"        /// <summary>\\n        /// Finds a bone by its name.\\n        /// </summary>\\n        /// <param name=\\\"boneName\\\">The name of the bone to find.</param>\\n        /// <returns>The bone, or null if not found.</returns>\\n        public Bone FindBone(string boneName) \x7b\"",
   "  \x7d",
   "]",
   "```",
   "",
   "Only return the JSON array - no other text. Include ALL needed edits in a single response."]

/-- Which edits mend broken or doubled comments? -/
def correction (code : String) (path : String) : String :=
  let t := Target.of path
  textOf [
   "# Task: Fix Documentation Errors",
   "",
   "## Source Code",
   "```" ++ t.fence,
   code,
   "```",
   "",
   "## Documentation Style for " ++ t.language,
   t.guide,
   "",
   "## Fix Documentation Issues",
   "Analyze the source code and fix these specific documentation issues:",
   "1. Remove any duplicate documentation comments",
   "2. Fix any syntax errors in comments (e.g., unclosed block comments, escaped characters)",
   "3. DO NOT add any new documentation",
   "",
   "Return ONLY a JSON array of correction edits. Each edit should fix ONE specific issue:",
   "",
   "```json",
   "[",
   "  \x7b",
   "    \"oldString\": \"The exact string containing the error\",",
   "    \"newString\": \"The corrected string\"",
   "  \x7d",
   "]",
   "```",
   "",
   "Focus ONLY on fixing documentation errors - do not modify or add new documentation content."]

end Prompt

end DocTransfer.Transfer
