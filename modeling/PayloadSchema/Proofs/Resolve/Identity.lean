import PayloadSchema.Proofs.Descriptor.Term
import PayloadSchema.Proofs.Resolve.Memory

/-!
# Identities as keys

What is compiled is kept by identity, so references of one identity should describe the same type. For
types made up of scalars, JSON values, parameters without an argument, containers and declarations they do,
if the declarations in use have names of their own: an identity is then read in one way as a term, and a
term stands for one type. But the name of a declaration is that of its module and its own, and two files may
hold one module, so in general they do not.

* `Produced` — the references that a resolver produces;
* `TypeRef.HasTerm.toList_identity`, `TypeRef.HasTerm.alike` — identities are written terms, and a term
  stands for one type;
* `sameBehind_of_isSettled` — settled references of one identity load descriptors of the same shape;
* `not_sameBehind` — but not all references do.
-/

namespace PayloadSchema

open Resolver (Request)

variable {files : Files} {root : FilePath}

/-! ## Produced references -/

/-- A reference that a resolver produces at some time: for a type written in a file, for a type declared in
one, or in what it loads behind another such reference. -/
inductive Produced (files : Files) (root : FilePath) : SourceType → Prop where
  | written (past later : List Request) {file : FilePath} {scope : FileScope} (type : Source.TypeExpr)
      (hscope : (((Resolver.ofRoot root).after files past).scope files file).1 = .ok scope) :
      Produced files root
        (Resolver.answer files (scope.walk [] type) ((Resolver.ofRoot root).after files later)).1
  | declared (past : List Request) {file : FilePath} {scope : FileScope} {name : String}
      (hscope : (((Resolver.ofRoot root).after files past).scope files file).1 = .ok scope)
      (hname : scope.declares name = true) :
      Produced files root (Instantiation.mk (scope.declaration name) []).toType
  | mentioned (past : List Request) {t u : SourceType} (h : Produced files root t)
      (hu : u ∈ (t.load (((Resolver.ofRoot root).after files past).environment files)).shape.mentions) :
      Produced files root u

/-- A scope that may be answered for a file is alike to itself, that is, the file is there and can be read. -/
theorem MayAnswer.alike {file : FilePath} {scope : FileScope} (h : MayAnswer files root file (.ok scope)) :
    scope.Alike files root scope := by
  generalize hanswer : (Except.ok scope : Except Failure FileScope) = answer at h
  -- the scope is read now, or was read before in some spelling of the path
  cases h with
  | fresh =>
      unfold FileScope.ofFile at hanswer
      cases hread : Source.ofFile files file with
      | error e => rw [hread] at hanswer; cases hanswer
      | ok source =>
          rw [hread] at hanswer
          cases hanswer
          have hfile := Source.isFile_of_ofFile hread (by simp)
          exact .intro (.refl hfile) hread hread
  | kept hparts h =>
      cases hanswer
      have hfile := Source.isFile_of_ofFile h (by simp)
      exact .intro (.refl hfile) h h
  | failed hparts h => cases hanswer

/-- A scope that a resolver gives is that of a file. -/
theorem Resolver.Honest.scope_alike {r : Resolver} (h : r.Honest files root) {file : FilePath}
    {scope : FileScope} (hscope : (r.scope files file).1 = .ok scope) : scope.Alike files root scope := by
  have hanswer := (h.scope file).1
  rw [hscope] at hanswer
  exact hanswer.alike

/-- A reference that is produced is alike to itself: all declarations in it are there. -/
theorem Produced.alike {t : SourceType} (h : Produced files root t) : t.Alike files root t := by
  have hnew := Resolver.honest_ofRoot files root
  induction h with
  | @written past later file scope type hscope =>
      have halike := (hnew.after past).scope_alike hscope
      -- Whatever was asked before, an honest memory answers as a fresh one would, up to likeness.
      have hyields := ((hnew.after later).answer (scope.walk [] type)).1
      exact FileScope.walk_alike halike .nil type _ _ hyields hyields
  | declared past hscope hname =>
      have halike := ((hnew.after past).scope_alike hscope).declaration hname
      exact Instantiation.Alike.toType ⟨halike, .nil⟩
  | @mentioned past t u _ hu ih =>
      rw [Resolver.load_environment] at hu
      have hyields := ((hnew.after past).answer t.fetch).1
      have hmentions := (TypeRef.fetch_alike ih _ _ hyields hyields).shape.mentions
      exact List.forall₂_same.1 hmentions u hu

/-! ## Settled references -/

/-- A type that is made from one other. -/
inductive Wrapper where
  | list
  | pointer
  | optional

namespace Wrapper

/-- The name before the type that is wrapped. -/
def head : Wrapper → String
  | list => "Vec"
  | pointer => "Box"
  | optional => "Option"

/-- The name before a wrapped type says how it is wrapped. -/
theorem head_injective {w w' : Wrapper} (h : w.head = w'.head) : w = w' := by
  cases w <;> cases w' <;> first | rfl | simp [head] at h

def around : Wrapper → SourceType → SourceType
  | list, t => .ready (.list t)
  | pointer, t => .ready (.pointer t)
  | optional, t => .ready (.optional t)

end Wrapper

/-- A reference whose parts are all known: scalars, JSON values, parameters that have no argument and no
scalar's name, containers, and declarations of a set. -/
inductive TypeRef.IsSettled (S : Set Declaration) : SourceType → Prop where
  | scalar (name : String) (s : Scalar) : IsSettled S (scalarType name s)
  | json : IsSettled S jsonType
  | unfilled {name : String} (hplain : IsPlain name) (hcolon : ':' ∉ name.toList)
      (h : WellKnown.scalarOf? name = none) : IsSettled S (.ready (.dynamic name))
  | wrapped (w : Wrapper) {t : SourceType} (h : IsSettled S t) : IsSettled S (w.around t)
  | map {key value : SourceType} (hkey : IsSettled S key) (h : IsSettled S value) :
      IsSettled S (.ready (.map key value))
  | declared {i : Instantiation} (hi : i.declaration ∈ S) (h : ∀ t ∈ i.arguments, IsSettled S t) :
      IsSettled S i.toType

/-- Declarations that have names of their own: the names have no delimiters, are not that of a JSON value,
and no two files hold declarations of one name in modules of one path. -/
structure Unambiguous (S : Set Declaration) : Prop where
  plain : ∀ d ∈ S, IsPlain d.modulePath ∧ IsPlain d.name ∧ ':' ∉ d.name.toList
  json : ∀ d ∈ S, ¬ (d.modulePath = "serde_json" ∧ d.name = "Value")
  place : ∀ d ∈ S, ∀ d' ∈ S, d.modulePath = d'.modulePath → d.name = d'.name →
    d.file.parts = d'.file.parts

/-- The name under which a declaration is known without its arguments. -/
def Declaration.path (d : Declaration) : String := d.modulePath ++ "::" ++ d.name

/-- What a name without arguments and module stands for: a scalar, or else any value. -/
def atomType (name : String) : SourceType :=
  match WellKnown.scalarOf? name with
  | some s => scalarType name s
  | none => .ready (.dynamic name)

/-- A settled reference and the term that its identity is read as. -/
inductive TypeRef.HasTerm (files : Files) (root : FilePath) (S : Set Declaration) :
    SourceType → Term → Prop where
  | atom {name : String} (hplain : IsPlain name) (hcolon : ':' ∈ name.toList → name = "serde_json::Value") :
      HasTerm files root S (atomType name) (.node name [])
  | wrapped (w : Wrapper) {t : SourceType} {k : Term} (h : HasTerm files root S t k) :
      HasTerm files root S (w.around t) (.node w.head [k])
  | map {key value : SourceType} {k k' : Term} (hkey : HasTerm files root S key k)
      (h : HasTerm files root S value k') : HasTerm files root S (.ready (.map key value)) (.node "Map" [k, k'])
  | declared {i : Instantiation} {ks : List Term} (hi : i.declaration ∈ S)
      (hdeclared : i.declaration.IsDeclared files root)
      (h : List.Forall₂ (HasTerm files root S) i.arguments ks) :
      HasTerm files root S i.toType (.node i.declaration.path ks)

/-! ### Names -/

def scalarNames : List String :=
  ["String", "str", "char", "bool", "i8", "i16", "i32", "i64", "i128", "isize", "u8", "u16", "u32", "u64",
    "u128", "usize", "f32", "f64", "Uuid", "DateTime", "NaiveDateTime", "SystemTime", "OffsetDateTime",
    "PrimitiveDateTime", "Timestamp", "NaiveDate", "Date"]

/-- Only the names of the list are those of scalars. -/
theorem mem_scalarNames {name : String} {s : Scalar} (h : WellKnown.scalarOf? name = some s) :
    name ∈ scalarNames := by
  by_contra hname
  simp only [scalarNames, List.mem_cons, List.not_mem_nil, or_false, not_or] at hname
  simp [WellKnown.scalarOf?, hname] at h

/-- The names of scalars have no delimiters and no colons. -/
theorem plain_of_mem_scalarNames : ∀ name ∈ scalarNames, IsPlain name ∧ ':' ∉ name.toList := by
  decide +kernel

theorem identity_atomType (name : String) : (atomType name).identity = name := by
  unfold atomType
  split <;> rfl

/-- A name without arguments stands for one type. -/
theorem atomType_alike (files : Files) (root : FilePath) (name : String) :
    (atomType name).Alike files root (atomType name) := by
  unfold atomType
  split
  next s h => exact .scalar h
  next => exact .dynamic name

/-- There are colons in the path of a declaration. -/
theorem colon_mem_path (d : Declaration) : ':' ∈ d.path.toList := by
  simp [Declaration.path]

/-- Two lists that are cut at their last separators are cut alike. -/
theorem append_cons_injective {α : Type} {a : α} {xs ys zs ws : List α} (hys : a ∉ ys) (hws : a ∉ ws)
    (heq : xs ++ a :: ys = zs ++ a :: ws) : xs = zs ∧ ys = ws := by
  rcases List.append_eq_append_iff.1 heq with ⟨between, hzs, hrest⟩ | ⟨between, hxs, hrest⟩
  · cases between with
    | nil => simp_all
    | cons b between =>
        have hmem : a ∈ ys := by simp_all
        exact absurd hmem hys
  · cases between with
    | nil => simp_all
    | cons b between =>
        have hmem : a ∈ ws := by simp_all
        exact absurd hmem hws

namespace Unambiguous

variable {S : Set Declaration}

/-- The path of a declaration has no delimiters. -/
theorem plain_path (hS : Unambiguous S) {d : Declaration} (hd : d ∈ S) : IsPlain d.path := by
  obtain ⟨hmodule, hname, -⟩ := hS.plain d hd
  have hseparator : IsPlain "::" := by decide
  exact (hmodule.append hseparator).append hname

/-- The path of a declaration says its module and its name. -/
theorem of_path_eq (hS : Unambiguous S) {d : Declaration} (hd : d ∈ S) {path name : String}
    (hname : ':' ∉ name.toList) (heq : d.path = path ++ "::" ++ name) :
    d.modulePath = path ∧ d.name = name := by
  obtain ⟨-, -, hcolon⟩ := hS.plain d hd
  have hchars : (d.modulePath ++ ":").toList ++ ':' :: d.name.toList =
      (path ++ ":").toList ++ ':' :: name.toList := by
    have := congrArg String.toList heq
    simpa [Declaration.path] using this
  obtain ⟨hmodule, hnames⟩ := append_cons_injective hcolon hname hchars
  rw [String.toList_inj] at hmodule hnames
  exact ⟨String.append_left_inj ":" |>.1 hmodule, hnames⟩

/-- No other name is the path of a declaration. -/
theorem path_ne (hS : Unambiguous S) {d : Declaration} (hd : d ∈ S) {name : String}
    (hcolon : ':' ∈ name.toList → name = "serde_json::Value") : d.path ≠ name := by
  rintro rfl
  have hjson := hcolon (colon_mem_path d)
  exact hS.json d hd (hS.of_path_eq hd (by decide) hjson)

/-- Declarations of one path are one declaration. -/
theorem alike (hS : Unambiguous S) {d d' : Declaration} (hd : d ∈ S) (hd' : d' ∈ S)
    (hdeclared : d.IsDeclared files root) (hdeclared' : d'.IsDeclared files root) (heq : d.path = d'.path) :
    d.Alike files root d' := by
  obtain ⟨hmodule, hname⟩ := hS.of_path_eq hd (hS.plain d' hd').2.2 heq
  have hfile : files.SameFile d.file d'.file := by
    obtain ⟨source, hread, -⟩ := hdeclared
    obtain ⟨source', hread', -⟩ := hdeclared'
    have hparts := hS.place d hd d' hd' hmodule hname
    exact ⟨hparts, Source.isFile_of_ofFile hread (by simp), Source.isFile_of_ofFile hread' (by simp)⟩
  exact ⟨hfile, hname, hdeclared, hdeclared'⟩

end Unambiguous

namespace TypeRef

variable {S : Set Declaration} {t u : SourceType} {k : Term}

/-! ### There is a term -/

/-- Of references that are alike and carry what they stand for, the shapes are related. -/
theorem Alike.shape_of_ready {d d' : Descriptor SourceType}
    (h : (TypeRef.ready d).Alike files root (.ready d')) :
    d.shape.Rel (SameReason files) (TypeRef.Alike files root) d'.shape :=
  (fetch_alike h d d' (.done d) (.done d')).shape

/-- A reference to a scalar is alike to another only under a name of the scalar. -/
theorem Alike.scalarOf?_eq {name : String} {s : Scalar} (h : (scalarType name s).Alike files root u) :
    WellKnown.scalarOf? name = some s := by
  generalize ht : scalarType name s = t at h
  cases h with
  | scalar h =>
      cases ht
      exact h
  | _ => cases ht

/-- References made of declarations are alike only if these are, with their arguments. -/
theorem Alike.instantiation {i j : Instantiation} (h : i.toType.Alike files root j.toType) :
    i.Alike files root j := by
  generalize ht : i.toType = t, hu : j.toType = u at h
  cases h with
  | declared _ hdeclaration harguments =>
      rw [(TypeRef.deferred.inj ht).2, (TypeRef.deferred.inj hu).2]
      exact ⟨hdeclaration, harguments⟩
  | _ => cases ht

/-- Types that are alike when they are wrapped are so inside. -/
theorem Alike.of_around {w : Wrapper} (h : (w.around t).Alike files root (w.around u)) :
    t.Alike files root u := by
  cases w with
  | list =>
      cases h.shape_of_ready with
      | list h => exact h
  | _ =>
      cases h.shape_of_ready with
      | pointer _ h => exact h

/-- Types that are alike are so when they are wrapped. -/
theorem Alike.around (w : Wrapper) (h : t.Alike files root u) :
    (w.around t).Alike files root (w.around u) := by
  cases w with
  | list => exact .list h.identity_eq h
  | pointer => exact .pointer h.identity_eq h
  | optional => exact .optional h.identity_eq h

theorem exists_forall₂ {α β : Type} {R : α → β → Prop} {as : List α} (h : ∀ a ∈ as, ∃ b, R a b) :
    ∃ bs, List.Forall₂ R as bs := by
  induction as with
  | nil => exact ⟨[], .nil⟩
  | cons a as ih =>
      obtain ⟨b, hb⟩ := h a List.mem_cons_self
      obtain ⟨bs, hbs⟩ := ih fun a ha => h a (List.mem_cons_of_mem _ ha)
      exact ⟨b :: bs, .cons hb hbs⟩

/-- The identity of a settled reference can be read as a term. -/
theorem IsSettled.exists_term (h : t.IsSettled S) (ht : t.Alike files root t) :
    ∃ k, HasTerm files root S t k := by
  induction h with
  | scalar name s =>
      have hscalar := ht.scalarOf?_eq
      obtain ⟨hplain, hcolon⟩ := plain_of_mem_scalarNames name (mem_scalarNames hscalar)
      -- an atom of this name stands for the scalar, since no other reading of the name is left
      have hatom : scalarType name s = atomType name := by rw [atomType, hscalar]
      rw [hatom]
      refine ⟨_, .atom hplain ?_⟩
      intro hmem
      exact absurd hmem hcolon
  | json => exact ⟨_, .atom (by decide) fun _ => rfl⟩
  | @unfilled name hplain hcolon h =>
      have hatom : TypeRef.ready (.dynamic name) = atomType name := by rw [atomType, h]
      rw [hatom]
      refine ⟨_, .atom hplain ?_⟩
      intro hmem
      exact absurd hmem hcolon
  | wrapped w _ ih =>
      obtain ⟨k, hk⟩ := ih ht.of_around
      exact ⟨_, .wrapped w hk⟩
  | map _ _ ihkey ih =>
      cases ht.shape_of_ready with
      | map hkey ht =>
        obtain ⟨k, hk⟩ := ihkey hkey
        obtain ⟨k', hk'⟩ := ih ht
        exact ⟨_, .map hk hk'⟩
  | @declared i hi _ ih =>
      obtain ⟨hdeclaration, harguments⟩ := ht.instantiation
      have hterms : ∀ t ∈ i.arguments, ∃ k, HasTerm files root S t k := by
        intro t ht
        exact ih t ht (List.forall₂_same.1 harguments t ht)
      obtain ⟨ks, hks⟩ := exists_forall₂ hterms
      exact ⟨_, .declared hi hdeclaration.left hks⟩

/-! ### Identities are written terms -/

/-- The identities of arguments are written as the terms are, between commas and up to the closing bracket. -/
theorem toList_intercalate_identities {ts : List SourceType} {ks : List Term}
    (h : List.Forall₂ (fun t k => t.identity.toList = k.chars) (t :: ts) (k :: ks)) :
    (", ".intercalate ((t :: ts).map TypeRef.identity)).toList ++ ['>'] = k.chars ++ Term.charsAfter ks := by
  induction ts generalizing t k ks with
  | nil =>
      cases h with
      | cons hk hks =>
        cases hks
        simp [hk, Term.charsAfter]
  | cons u us ih =>
      cases h with
      | cons hk hks =>
        cases hks with
        | cons hu hus =>
          -- The separator stands between two identities, which is where the term writes its comma.
          have hrest := ih (.cons hu hus)
          simp only [List.map_cons, String.intercalate_cons_cons, String.toList_append,
            List.append_assoc] at hrest ⊢
          rw [hrest, hk]
          rfl

/-- A declaration is shown by its path and then its arguments. -/
theorem toList_identity_declared {i : Instantiation} {ks : List Term}
    (h : List.Forall₂ (fun t k => t.identity.toList = k.chars) i.arguments ks) :
    i.identity.toList = i.declaration.path.toList ++ Term.argumentChars ks := by
  unfold Instantiation.identity Declaration.path
  -- Without arguments there are no angle brackets, in the identity as in the term.
  cases harguments : i.arguments with
  | nil =>
      rw [harguments] at h
      cases h
      simp [Term.argumentChars]
  | cons t ts =>
      rw [harguments] at h
      cases ks with
      | nil => cases h
      | cons k ks =>
          have hlist := toList_intercalate_identities h
          dsimp only
          rw [String.toList_append, String.toList_append, List.append_assoc, show ">".toList = ['>'] from rfl,
            hlist, String.toList_append, List.append_assoc]
          rfl

/-- The identity of a wrapped type is the name of the wrapper around that of the type. -/
theorem toList_identity_around (w : Wrapper) (h : t.identity.toList = k.chars) :
    (w.around t).identity.toList = (Term.node w.head [k]).chars := by
  cases w <;> exact Term.toList_around (by decide) h

/-- The identity of a settled reference is its term, written out. -/
theorem HasTerm.toList_identity (h : HasTerm files root S t k) : t.identity.toList = k.chars := by
  induction k using Term.induction generalizing t with
  | node head ts ih =>
      cases h with
      | atom _ _ => rw [identity_atomType, Term.chars, Term.argumentChars, List.append_nil]
      | wrapped w h => exact toList_identity_around w (ih _ List.mem_cons_self h)
      | map hkey h =>
          have hk := ih _ List.mem_cons_self hkey
          have hk' := ih _ (List.mem_cons_of_mem _ List.mem_cons_self) h
          exact Term.toList_around_two (by decide) hk hk'
      | @declared i _ hi hdeclared h =>
          -- Arguments and subterms are paired position by position.
          have hks : List.Forall₂ (fun t k => t.identity.toList = k.chars) i.arguments ts := by
            rw [List.forall₂_iff_get] at h ⊢
            refine ⟨h.1, ?_⟩
            intro n ht hk
            exact ih _ (List.get_mem _ _) (h.2 n ht hk)
          show i.identity.toList = _
          rw [toList_identity_declared hks, Term.chars]
  | slice element ih => cases h
  | array element length ih => cases h

/-! ### A term stands for one type -/

/-- The heads of a term have no delimiters. -/
theorem HasTerm.plain (hS : Unambiguous S) (h : HasTerm files root S t k) : k.HasPlainHeads := by
  induction k using Term.induction generalizing t with
  | node head ts ih =>
      cases h with
      | atom hplain hcolon => exact ⟨hplain, trivial⟩
      | wrapped w h =>
          have hhead : IsPlain w.head := by cases w <;> decide
          exact ⟨hhead, ih _ List.mem_cons_self h, trivial⟩
      | map hkey h =>
          have hhead : IsPlain "Map" := by decide
          have hvalue := ih _ (List.mem_cons_of_mem _ List.mem_cons_self) h
          exact ⟨hhead, ih _ List.mem_cons_self hkey, hvalue, trivial⟩
      | declared hi hdeclared h =>
          -- That a declared path is plain is what being unambiguous gives; every other head is a fixed
          -- word.
          refine ⟨hS.plain_path hi, Term.haveAllPlainHeads_iff.2 ?_⟩
          intro k hk
          obtain ⟨n, hn, rfl⟩ := List.mem_iff_getElem.1 hk
          rw [List.forall₂_iff_get] at h
          exact ih _ hk (h.2 n (h.1 ▸ hn) hn)
  | slice element ih => cases h
  | array element length ih => cases h

/-- A term stands for one type, up to the spelling of the files. -/
theorem HasTerm.alike (hS : Unambiguous S) (h : HasTerm files root S t k) (h' : HasTerm files root S u k) :
    t.Alike files root u := by
  -- two references with one term are made in the same way: the heads of the others differ, since only the
  -- paths of declarations have colons in them
  have hwrapper : ∀ d ∈ S, ∀ w : Wrapper, d.path ≠ w.head := by
    intro d hd w
    have hcolon : ':' ∉ w.head.toList := by cases w <;> decide
    exact hS.path_ne hd fun hmem => absurd hmem hcolon
  have hmap : ∀ d ∈ S, d.path ≠ "Map" := by
    intro d hd
    have hcolon : ':' ∉ "Map".toList := by decide
    exact hS.path_ne hd fun hmem => absurd hmem hcolon
  induction k using Term.induction generalizing t u with
  | node head ts ih =>
      generalize hk : Term.node head ts = k at h'
      cases h with
      | atom hplain hcolon =>
          cases h' with
          | atom hplain' hcolon' =>
              rw [(Term.node.inj hk).1]
              exact atomType_alike files root _
          | wrapped w h' => simp at hk
          | map hkey' h' => simp at hk
          | declared hi' hdeclared' h' =>
              have hhead := (Term.node.inj hk).1
              exact absurd hhead.symm (hS.path_ne hi' hcolon)
      | wrapped w h =>
          cases h' with
          | atom hplain' hcolon' => simp at hk
          | wrapped w' h' =>
              obtain ⟨hhead, hks⟩ := Term.node.inj hk
              obtain ⟨rfl, -⟩ := List.cons.inj hks
              rw [← Wrapper.head_injective hhead]
              exact Alike.around w (ih _ List.mem_cons_self h h')
          | map hkey' h' => simp at hk
          | declared hi' hdeclared' h' =>
              have hhead := (Term.node.inj hk).1
              exact absurd hhead.symm (hwrapper _ hi' w)
      | map hkey h =>
          cases h' with
          | atom hplain' hcolon' => simp at hk
          | wrapped w h' => simp at hk
          | map hkey' h' =>
              obtain ⟨-, hks⟩ := Term.node.inj hk
              obtain ⟨rfl, hrest⟩ := List.cons.inj hks
              obtain ⟨rfl, -⟩ := List.cons.inj hrest
              have hkeys := ih _ List.mem_cons_self hkey hkey'
              have hvalues := ih _ (List.mem_cons_of_mem _ List.mem_cons_self) h h'
              exact .map hkeys.identity_eq hvalues.identity_eq hkeys hvalues
          | declared hi' hdeclared' h' =>
              have hhead := (Term.node.inj hk).1
              exact absurd hhead.symm (hmap _ hi')
      | declared hi hdeclared h =>
          cases h' with
          | atom hplain' hcolon' =>
              have hhead := (Term.node.inj hk).1
              exact absurd hhead (hS.path_ne hi hcolon')
          | wrapped w h' =>
              have hhead := (Term.node.inj hk).1
              exact absurd hhead (hwrapper _ hi w)
          | map hkey' h' =>
              have hhead := (Term.node.inj hk).1
              exact absurd hhead (hmap _ hi)
          | declared hi' hdeclared' h' =>
              obtain ⟨hpath, rfl⟩ := Term.node.inj hk
              have hdeclaration := hS.alike hi hi' hdeclared hdeclared' hpath
              refine Instantiation.Alike.toType ⟨hdeclaration, ?_⟩
              rw [List.forall₂_iff_get] at h h' ⊢
              refine ⟨h.1.trans h'.1.symm, ?_⟩
              intro n hn hn'
              have hterm := h.2 n hn (h.1 ▸ hn)
              have hterm' := h'.2 n hn' (h.1 ▸ hn)
              exact ih _ (List.get_mem _ _) hterm hterm'
  | slice element ih => cases h
  | array element length ih => cases h

/-- Settled references of one identity are alike. -/
theorem IsSettled.alike (hS : Unambiguous S) (h : t.IsSettled S) (h' : u.IsSettled S)
    (ht : t.Alike files root t) (hu : u.Alike files root u) (hidentity : t.identity = u.identity) :
    t.Alike files root u := by
  obtain ⟨k, hk⟩ := h.exists_term ht
  obtain ⟨k', hk'⟩ := h'.exists_term hu
  -- the identity is one text, which is read in one way
  have hchars : k.chars = k'.chars := by rw [← hk.toList_identity, ← hk'.toList_identity, hidentity]
  obtain rfl := Term.chars_injective (hk.plain hS) (hk'.plain hS) hchars
  exact hk.alike hS hk'

end TypeRef

/-! ## References of one identity -/

/-- References of one identity load descriptors of the same shape, whatever was asked before each is
loaded: the same kind, and the same fields, elements or variants, of pairwise equal identities. -/
def SameBehind (files : Files) (root : FilePath) (t u : SourceType) : Prop :=
  t.identity = u.identity → ∀ past past' : List Request,
    (t.load (((Resolver.ofRoot root).after files past).environment files)).shape.Rel (SameReason files)
      (fun a b => a.identity = b.identity)
      (u.load (((Resolver.ofRoot root).after files past').environment files)).shape

/-- **Identities are keys** of settled references, if the declarations in use are unambiguous. -/
theorem sameBehind_of_isSettled (files : Files) (root : FilePath) {S : Set Declaration} (hS : Unambiguous S)
    {t u : SourceType} (ht : Produced files root t) (hu : Produced files root u) (hts : t.IsSettled S)
    (hus : u.IsSettled S) : SameBehind files root t u := by
  intro hidentity past past'
  have halike := hts.alike hS hus ht.alike hu.alike hidentity
  have hnew := Resolver.honest_ofRoot files root
  rw [Resolver.load_environment, Resolver.load_environment]
  have hyields := ((hnew.after past).answer t.fetch).1
  have hyields' := ((hnew.after past').answer u.fetch).1
  have hfetched := TypeRef.fetch_alike halike _ _ hyields hyields'
  exact hfetched.shape.mono (fun _ _ h => h) fun _ _ h => h.identity_eq

/-! ## One module in two files -/

namespace Twofold

/-- A library and a program in one directory, both of which declare a user. -/
def project : Files :=
  .ofSources [("lib.rs", "struct User { id: u64 }"), ("main.rs", "struct User { name: String }")]

def home : FilePath := ⟨""⟩

/-- What a file of the two says at its surface. -/
def scopeAt (path : FilePath) : FileScope :=
  { path, modulePath := "crate", imports := {}, declared := ["User"], children := [] }

/-- The user that a file declares. -/
def userAt (path : FilePath) : Instantiation := .mk ((scopeAt path).declaration "User") []

/-- The user as both files write it. -/
def user : Source.TypeExpr := .path false ⟨false, [{ name := "User" }]⟩

/-- A list of users as both files may write it. -/
def userList : Source.TypeExpr :=
  .path false ⟨false, [{ name := "Vec", style := .angled, types := [user] }]⟩

/-- The users of the library, in two spellings of its path. -/
def users : Set Declaration := {(userAt ⟨"src/lib.rs"⟩).declaration, (userAt ⟨"src/./lib.rs"⟩).declaration}

theorem unambiguous_users : Unambiguous users where
  plain := by
    rintro d (rfl | rfl) <;> decide +kernel
  json := by
    rintro d (rfl | rfl) <;> decide +kernel
  place := by
    rintro d (rfl | rfl) d' (rfl | rfl) - - <;> decide +kernel

/-- A scope that is found by evaluation is the one that is answered. -/
theorem scope_eq {path : FilePath}
    (h : (((Resolver.ofRoot home).after project []).scope project path).1.toOption = some (scopeAt path)) :
    (((Resolver.ofRoot home).after project []).scope project path).1 = .ok (scopeAt path) := by
  generalize (((Resolver.ofRoot home).after project []).scope project path).1 = answer at h
  cases answer with
  | ok scope => exact congrArg Except.ok (Option.some.inj h)
  | error f => cases h

end Twofold

open Twofold

/-- A slice of users in one spelling of the file and a list of users in another load the same. -/
theorem sameBehind_of_isSettled_users :
    Unambiguous users ∧
      ∃ t u, Produced project home t ∧ Produced project home u ∧ t.IsSettled users ∧ u.IsSettled users ∧
        t.identity = "Vec<crate::User>" ∧ u.identity = "Vec<crate::User>" ∧ SameBehind project home t u := by
  have hslice : Produced project home (.ready (.list (userAt ⟨"src/lib.rs"⟩).toType)) :=
    .written [] [] (.slice user) (scope_eq (by decide +kernel))
  have hlist : Produced project home (.ready (.list (userAt ⟨"src/./lib.rs"⟩).toType)) :=
    .written [] [] userList (scope_eq (by decide +kernel))
  have hsettled : (TypeRef.ready (.list (userAt ⟨"src/lib.rs"⟩).toType)).IsSettled users :=
    .wrapped .list (.declared (.inl rfl) (by simp [userAt, Instantiation.arguments]))
  have hsettled' : (TypeRef.ready (.list (userAt ⟨"src/./lib.rs"⟩).toType)).IsSettled users :=
    .wrapped .list (.declared (.inr rfl) (by simp [userAt, Instantiation.arguments]))
  refine ⟨unambiguous_users, _, _, hslice, hlist, hsettled, hsettled', by decide +kernel, by decide +kernel, ?_⟩
  exact sameBehind_of_isSettled project home unambiguous_users hslice hlist hsettled hsettled'

/-- But not all references of one identity load the same: the library and the program have one module path,
so both users are known by one name. -/
theorem not_sameBehind :
    ¬ ∀ (files : Files) (root : FilePath) (t u : SourceType),
      Produced files root t → Produced files root u → SameBehind files root t u := by
  intro hall
  have hlib : Produced project home (userAt ⟨"src/lib.rs"⟩).toType :=
    .declared [] (scope_eq (by decide +kernel)) (by decide +kernel)
  have hmain : Produced project home (userAt ⟨"src/main.rs"⟩).toType :=
    .declared [] (scope_eq (by decide +kernel)) (by decide +kernel)
  have hshape := hall project home _ _ hlib hmain (by decide +kernel) [] []
  -- the types of the fields would have the same identities
  have hsame := map_eq_map_iff_forall₂.2 hshape.mentions
  revert hsame
  decide +kernel

end PayloadSchema
