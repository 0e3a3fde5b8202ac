import Candela.Proofs.Shader.Library
import Candela.Proofs.Shader.Tables
import Candela.Proofs.Text.Names

/-!
# Names of generated code

Functions and variables are named after materials and nodes, whose names are arbitrary text. A snake
identifier behind one of the two stems, with or without a number, is an identifier of the shading
language (`isIdentifier_append`): it has letters, digits and underscores only, begins with a letter,
and none of the language's own words begins with a single letter and an underscore.
`snake_canonical` puts this beside what `snake` does to all names, and says it of every function and
every variable of a library.
-/

namespace Candela.Shader

open Candela.Text (IsSnake snake fresh)

/-- The words that the shading language has a meaning for, and those that it reserves. -/
def reservedWords : List String :=
  ["alias", "break", "case", "const", "const_assert", "continue", "continuing", "default",
    "diagnostic", "discard", "else", "enable", "false", "fn", "for", "if", "let", "loop", "override",
    "requires", "return", "struct", "switch", "true", "var", "while",
    "NULL", "Self", "abstract", "active", "alignas", "alignof", "as", "asm", "asm_fragment", "async",
    "attribute", "auto", "await", "become", "binding_array", "cast", "catch", "class", "co_await",
    "co_return", "co_yield", "coherent", "column_major", "common", "compile", "compile_fragment",
    "concept", "const_cast", "consteval", "constexpr", "constinit", "crate", "debugger", "decltype",
    "delete", "demote", "demote_to_helper", "do", "dynamic_cast", "enum", "explicit", "export",
    "extends", "extern", "external", "fallthrough", "filter", "final", "finally", "friend", "from",
    "fxgroup", "get", "goto", "groupshared", "highp", "impl", "implements", "import", "inline",
    "instanceof", "interface", "layout", "lowp", "macro", "macro_rules", "match", "mediump", "meta",
    "mod", "module", "move", "mut", "mutable", "namespace", "new", "nil", "noexcept", "noinline",
    "nointerpolation", "non_coherent", "noncoherent", "noperspective", "null", "nullptr", "of",
    "operator", "package", "packoffset", "partial", "pass", "patch", "pixelfragment", "precise",
    "precision", "premerge", "priv", "protected", "pub", "public", "readonly", "ref", "regardless",
    "register", "reinterpret_cast", "require", "resource", "restrict", "self", "set", "shared",
    "signed", "sizeof", "smooth", "snorm", "static", "static_assert", "static_cast", "std",
    "subroutine", "super", "target", "template", "this", "thread_local", "throw", "trait", "try",
    "type", "typedef", "typeid", "typename", "typeof", "union", "unless", "unorm", "unsafe",
    "unsized", "use", "using", "varying", "virtual", "volatile", "wgsl", "where", "with",
    "writeonly", "yield"]

/-- A text may name something in the shading language. The language has identifiers with other
letters too, which are left out here. -/
structure IsIdentifier (s : String) : Prop where
  chars : ∀ c ∈ s.toList, isNameChar c = true
  /-- It does not begin with a digit. -/
  start : ∃ c, s.toList.head? = some c ∧ (c.isAlpha = true ∨ c = '_')
  /-- An underscore alone is no name. -/
  ne_bar : s ≠ "_"
  not_bars : ¬ ['_', '_'] <+: s.toList
  unreserved : s ∉ reservedWords

/-- A snake identifier behind a stem is an identifier, and so is one with a number behind it. -/
theorem isIdentifier_append {stem rest : String} (hstem : stem = "s_" ∨ stem = "n_")
    (hrest : ∀ c ∈ rest.toList, Text.isSnakeChar c = true) : IsIdentifier (stem ++ rest) := by
  obtain ⟨letter, hletter, hstem⟩ : ∃ letter, (letter = 's' ∨ letter = 'n') ∧
      stem.toList = [letter, '_'] := by
    rcases hstem with rfl | rfl
    · exact ⟨'s', .inl rfl, rfl⟩
    · exact ⟨'n', .inr rfl, rfl⟩
  have hchars : (stem ++ rest).toList = letter :: '_' :: rest.toList := by
    rw [String.toList_append, hstem]
    rfl
  have halpha : letter.isAlpha = true ∧ letter ≠ '_' := by
    rcases hletter with rfl | rfl <;> decide
  -- none of the words has an underscore behind a single letter
  have hwords : ∀ w ∈ reservedWords,
      w.toList.take 2 ≠ ['s', '_'] ∧ w.toList.take 2 ≠ ['n', '_'] := by decide +kernel
  refine ⟨fun c hc => ?_, ⟨letter, by rw [hchars]; rfl, .inl halpha.1⟩, fun hbar => ?_,
    fun hbars => ?_, fun hmem => ?_⟩
  · rw [hchars, List.mem_cons, List.mem_cons] at hc
    rcases hc with rfl | rfl | hc
    · simp [isNameChar, Char.isAlphanum, halpha.1]
    · decide
    · exact isNameChar_of_isSnakeChar (hrest c hc)
  · have hone := congrArg String.toList hbar
    rw [hchars] at hone
    exact halpha.2 (List.head_eq_of_cons_eq hone)
  · rw [hchars, List.cons_prefix_cons] at hbars
    exact halpha.2 hbars.1.symm
  · have htake := hwords _ hmem
    rw [hchars] at htake
    rcases hletter with rfl | rfl
    · exact htake.1 rfl
    · exact htake.2 rfl

/-- A fresh name made from a snake identifier behind a stem is an identifier. -/
theorem isIdentifier_fresh {stem separator : String} (hstem : stem = "s_" ∨ stem = "n_")
    (hseparator : separator = "" ∨ separator = "_") (taken : List String) (name : String) :
    IsIdentifier (fresh taken (stem ++ snake name) separator) := by
  have hbetween : separator.toList.all Text.isSnakeChar = true := by
    rcases hseparator with rfl | rfl <;> decide
  obtain ⟨rest, heq, hrest⟩ := Text.exists_fresh_append stem separator hbetween taken name
  exact heq ▸ isIdentifier_append hstem hrest

namespace Library

/-- All functions and variables of a library are named by identifiers. -/
theorem after_identifiers (requests : List Request) :
    ∀ f ∈ (after requests).functions,
      IsIdentifier f.name ∧ ∀ b ∈ f.blocks, IsIdentifier b.identifier := by
  intro f hf
  refine ⟨?_, after_blocks (fun taken name => isIdentifier_fresh (.inr rfl) (.inr rfl) taken name)
    (fun hcode hvariables => hvariables _ _ hcode.identifier) requests f hf⟩
  obtain ⟨rest, heq, hrest⟩ := (after_names requests).2 f.name (List.mem_map_of_mem hf)
  exact heq ▸ isIdentifier_append (.inl rfl) hrest

end Library

/-- Whatever a name is, its snake identifier is one or more words of lower-case letters and digits
with one underscore between them; so it is not empty, and no underscore stands at an end or beside
another one. The names that are their own snake identifiers are those of this form, and hence
taking the snake identifier twice changes nothing more. Behind its stem, and with the number that
makes it a new name, it is an identifier of the shading language; these are the names of all
functions and variables of a library. -/
theorem snake_canonical (name : String) :
    IsSnake (snake name) ∧
      (snake name ≠ "" ∧ (snake name).toList.head? ≠ some '_' ∧
        (snake name).toList.getLast? ≠ some '_' ∧ ¬ ['_', '_'] <:+: (snake name).toList) ∧
      snake (snake name) = snake name ∧ (snake name = name ↔ IsSnake name) ∧
      (∀ taken, IsIdentifier (fresh taken ("s_" ++ snake name) "") ∧
        IsIdentifier (fresh taken ("n_" ++ snake name) "_")) ∧
      ∀ requests, ∀ f ∈ (Library.after requests).functions,
        IsIdentifier f.name ∧ ∀ b ∈ f.blocks, IsIdentifier b.identifier := by
  have hsnake : IsSnake (snake name) := Text.isSnake_snake name
  obtain ⟨hne, hhead, hlast, hchain⟩ := Text.separated_iff.1 (Text.isSnake_iff.1 hsnake).2
  refine ⟨hsnake, ⟨fun hempty => hne (hempty ▸ rfl), hhead, hlast, fun hinfix => ?_⟩,
    Text.snake_eq_self hsnake, ⟨fun heq => heq ▸ hsnake, Text.snake_eq_self⟩,
    fun taken => ⟨isIdentifier_fresh (.inl rfl) (.inl rfl) taken name,
      isIdentifier_fresh (.inr rfl) (.inr rfl) taken name⟩, Library.after_identifiers⟩
  have hbars : List.IsChain Text.Parted ['_', '_'] := List.IsChain.infix hchain hinfix
  exact (List.isChain_cons_cons.1 hbars).1 ⟨rfl, rfl⟩

/-- A name with runs of other characters, inside and at both ends; two titles that come to the same
identifier, and two nodes that do. -/
theorem snake_canonical_mix :
    snake " baseColor__Mix.001 ÄÖ" = "base_color_mix_001" ∧ IsSnake "base_color_mix_001" ∧
      ¬ IsSnake " baseColor__Mix.001 ÄÖ" ∧
      ∃ f ∈ (Library.after [⟨"Base Color", braid, .surface⟩,
          ⟨"baseColor", braid, .surface⟩]).functions,
        f.name = "s_base_color2" ∧ IsIdentifier f.name ∧
          ∃ b ∈ f.blocks, b.identifier = "n_bsdf_001_2" ∧ IsIdentifier b.identifier := by
  have hmix : snake " baseColor__Mix.001 ÄÖ" = "base_color_mix_001" := by decide +kernel
  have hfunctions : (Library.after [⟨"Base Color", braid, .surface⟩,
      ⟨"baseColor", braid, .surface⟩]).functions.any (fun f => f.name = "s_base_color2" ∧
        f.blocks.any (·.identifier = "n_bsdf_001_2")) = true := by decide +kernel
  obtain ⟨f, hf, hany⟩ := List.any_eq_true.1 hfunctions
  obtain ⟨hname, hblocks⟩ := of_decide_eq_true hany
  obtain ⟨b, hb, hidentifier⟩ := List.any_eq_true.1 hblocks
  obtain ⟨hsnake, -, -, hself, -, hlibrary⟩ := snake_canonical " baseColor__Mix.001 ÄÖ"
  refine ⟨hmix, hmix ▸ hsnake, fun hother => ?_, f, hf, hname, (hlibrary _ f hf).1, b, hb,
    of_decide_eq_true hidentifier, (hlibrary _ f hf).2 b hb⟩
  rw [← hself, hmix] at hother
  exact absurd hother (by decide)

end Candela.Shader
