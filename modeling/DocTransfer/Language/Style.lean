/-! # Documentation style guides

What a prompt tells the model about comments in a language. -/

namespace DocTransfer.Language

/-- Lines as a text; each line ends with a line feed. -/
def textOf (lines : List String) : String :=
  String.join (lines.map (· ++ "\n"))

/-- XML comments. -/
def xmlGuide : String :=
  textOf [
   "Use XML documentation comments (///) for C# code:",
   "- Place comments directly above the entity being documented",
   "- Use <summary> for general descriptions",
   "- Use <param name=\"paramName\"> for parameters",
   "- Use <returns> for return values",
   "- Use <exception cref=\"ExceptionType\"> for exceptions (use full type name)",
   "- Use <remarks> for additional information",
   "- Use <see cref=\"TypeName\"/> to reference types",
   "- Use <seealso cref=\"TypeName\"/> for related types",
   "",
   "Example:",
   "/// <summary>",
   "/// Stores and manipulates the bones of a skeleton.",
   "/// </summary>",
   "/// <seealso cref=\"Bone\"/>",
   "public class Skeleton \x7b",
   "    /// <summary>",
   "    /// Finds a bone by its name.",
   "    /// </summary>",
   "    /// <param name=\"boneName\">The name of the bone to find.</param>",
   "    /// <returns>The <see cref=\"Bone\"/>, or null if not found.</returns>",
   "    /// <exception cref=\"ArgumentNullException\">When boneName is null.</exception>",
   "    public Bone FindBone(string boneName) \x7b ... \x7d",
   "\x7d"]

/-- Doxygen comments. -/
def doxygenGuide : String :=
  textOf [
   "Use Doxygen-style comments for C/C++ code:",
   "- Use /** ... */ for single and multi-line documentation",
   "- Do not use /// for documentation",
   "- Place comments directly above the entity being documented",
   "- Use @brief for short descriptions",
   "- Use @param[in] / @param[out] paramName for parameters",
   "- Use @return for return values",
   "- Use @throws for exceptions",
   "- Use @details for additional information",
   "- Use @see ClassName for related types",
   "- Use @ref ClassName for inline class references",
   "- Use @ref ClassName::methodName(ParamType) for method references",
   "- Use @sa (see also) for related references",
   "- Use @relates ClassName for related non-member functions",
   "",
   "Example:",
   "/**",
   " * @brief Stores and manipulates the bones of a skeleton.",
   " * @see Bone",
   " * @sa BoneAnimation",
   " */",
   "class Skeleton \x7b",
   "    /**",
   "     * @brief Finds a bone by its name.",
   "     * @param[in] boneName The name of the bone to find.",
   "     * @return The @ref Bone pointer, or nullptr if not found.",
   "     * @throws std::invalid_argument When boneName is null.",
   "     */",
   "    Bone* findBone(const char* boneName) \x7b ... \x7d",
   "\x7d;"]

/-- JSDoc comments. -/
def jsdocGuide : String :=
  textOf [
   "Use JSDoc comments for JavaScript/TypeScript code:",
   "- Use /** ... */ format",
   "- Place comments directly above the entity being documented",
   "- Use @description or the first line for general descriptions",
   "- Use @param \x7btype\x7d paramName - description for parameters",
   "- Use @returns \x7btype\x7d description for return values",
   "- Use @throws \x7btype\x7d description for exceptions",
   "- Use \x7b@link ClassName\x7d for inline references",
   "- Use @see ClassName for related type references",
   "",
   "Example:",
   "/**",
   " * Stores and manipulates the bones of a skeleton.",
   " * @see Bone",
   " */",
   "class Skeleton \x7b",
   "    /**",
   "     * Finds a bone by its name.",
   "     * @param \x7bstring\x7d boneName - The name of the bone to find.",
   "     * @returns \x7bBone|null\x7d The \x7b@link Bone\x7d, or null if not found.",
   "     * @throws \x7bError\x7d When boneName is null.",
   "     */",
   "    findBone(boneName) \x7b ... \x7d",
   "\x7d"]

/-- Haxe comments. -/
def haxeGuide : String :=
  textOf [
   "Use documentation comments for Haxe code:",
   "- Use /** ... */ format",
   "- Place comments directly above the entity being documented",
   "- Use @param paramName description for parameters",
   "- Use @return description for return values",
   "- Use @throws Type description for exceptions",
   "",
   "Example:",
   "/**",
   " * Stores and manipulates the bones of a skeleton.",
   " */",
   "class Skeleton \x7b",
   "    /**",
   "     * Finds a bone by its name.",
   "     * @param boneName The name of the bone to find.",
   "     * @return The bone, or null if not found.",
   "     */",
   "    public function findBone(boneName:String):Bone \x7b ... \x7d",
   "\x7d"]

/-- The guide for languages without one of their own. -/
def plainGuide : String :=
  "Use appropriate documentation style for this language."

end DocTransfer.Language
