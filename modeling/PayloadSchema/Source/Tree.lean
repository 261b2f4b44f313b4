import PayloadSchema.Source.Token

/-!
# Syntax trees

What reading source text keeps of it: declarations of data types with their attributes and field types,
imports and module names in full, and of everything else no more than a later question needs. An
expression keeps its literal, if it is one; an item that is no declaration keeps only the items that are
declared in blocks inside it. Some forms are kept as their tokens alone, and nothing is met inside them.
-/

namespace PayloadSchema.Source

/-! ## Paths and types -/

/-- How the arguments of a path segment are written. -/
inductive ArgumentStyle where
  | bare
  | angled
  | parenthesized
deriving DecidableEq, Repr

/-- A segment of a path, with the types among its arguments in angle brackets. -/
structure Segment (τ : Type) where
  name : String
  style : ArgumentStyle := .bare
  types : List τ := []

/-- A path: names separated by `::`, possibly after a leading one. -/
structure Path (τ : Type) where
  leading : Bool
  segments : List (Segment τ)

/-- A type as it is written. -/
inductive TypeExpr where
  /-- A path; a qualified one starts with a type in angle brackets, which is left out. -/
  | path (qualified : Bool) (path : Path TypeExpr)
  | reference (target : TypeExpr)
  | pointer (target : TypeExpr)
  | slice (element : TypeExpr)
  | array (element : TypeExpr)
  | parenthesized (inner : TypeExpr)
  | tuple (elements : List TypeExpr)
  | function (inputs : List TypeExpr)
  /-- A trait object, by the first of its bounds that is a trait. -/
  | traitObject (principal : Option (Path TypeExpr))
  | implTrait
  | never
  | inferred
  | macroCall
  | other
deriving Inhabited

/-- Whether no segment of a path has arguments. -/
def Path.isBare {τ : Type} (p : Path τ) : Bool := p.segments.all fun s => s.style == .bare

/-- The names of a path's segments. -/
def Path.names {τ : Type} (p : Path τ) : List String := p.segments.map (·.name)

/-! ## Expressions -/

/-- An expression, as far as its kind matters: a number may be negated and in parentheses, and the
grammar asks for ranges, comparisons, blocks and macro calls. -/
inductive Expr where
  | literal (value : Literal)
  | negated (operand : Expr)
  | parenthesized (inner : Expr)
  | range
  | comparison
  /-- A block, or what ends in one and may stand as a statement without a semicolon. -/
  | block
  | macroCall (braced : Bool)
  /-- What is kept as its tokens, together with its attributes. -/
  | verbatim
  | other
deriving Inhabited

/-! ## Attributes -/

/-- The path of an attribute. -/
structure MetaPath where
  leading : Bool
  segments : List String
deriving DecidableEq, Repr

/-- Whether a path is one given word. -/
def MetaPath.is (p : MetaPath) (word : String) : Bool := !p.leading && p.segments == [word]

/-- What an attribute says: a path alone, with tokens in brackets, or with a value. -/
inductive Meta where
  | path (path : MetaPath)
  | list (path : MetaPath) (tokens : List Token)
  | value (path : MetaPath) (value : Expr)

def Meta.name : Meta → MetaPath
  | .path p => p
  | .list p _ => p
  | .value p _ => p

/-! ## Items -/

/-- The tree of an import. -/
inductive UseTree where
  | path (name : String) (rest : UseTree)
  | name (name : String)
  | rename (name newName : String)
  | glob
  | group (trees : List UseTree)
deriving Inhabited

/-- A field; the name is empty in a tuple. -/
structure FieldDecl where
  attributes : List Meta
  name : String
  type : TypeExpr

/-- The fields of a structure or of a variant. -/
inductive Fields where
  | named (fields : List FieldDecl)
  | positional (fields : List FieldDecl)
  | unit

def Fields.toList : Fields → List FieldDecl
  | .named fields => fields
  | .positional fields => fields
  | .unit => []

/-- A variant of an enumeration. -/
structure VariantDecl where
  attributes : List Meta
  name : String
  fields : Fields

/-- A structure, with the names of its type parameters. -/
structure StructDecl where
  attributes : List Meta
  name : String
  parameters : List String
  fields : Fields

/-- An enumeration. -/
structure EnumDecl where
  attributes : List Meta
  name : String
  parameters : List String
  variants : List VariantDecl

/-- Another name for a type. -/
structure AliasDecl where
  attributes : List Meta
  name : String
  parameters : List String
  type : TypeExpr

/-- An item of a file or of a block. -/
inductive Item where
  | struct (decl : StructDecl)
  | enum (decl : EnumDecl)
  | typeAlias (decl : AliasDecl)
  | use (tree : UseTree)
  | module (name : String)
  /-- Constants and the like, with the items declared in blocks of their attributes, types and
  expressions. -/
  | value (inner : List Item)
  /-- Functions, traits, implementations and macros, whose insides nothing asks for. -/
  | closed
deriving Inhabited

/-- A source file by its top-level items. If there are items in blocks of its own attributes, they stand
before it as those of a constant. -/
structure SourceFile where
  items : List Item

/-- The name of a declared data type. -/
def Item.declared? : Item → Option String
  | .struct d => some d.name
  | .enum d => some d.name
  | .typeAlias d => some d.name
  | _ => none

/-- The first structure, enumeration or alias of a name at the top level. -/
def SourceFile.find? (file : SourceFile) (name : String) : Option Item :=
  file.items.find? fun item => item.declared? == some name

end PayloadSchema.Source
