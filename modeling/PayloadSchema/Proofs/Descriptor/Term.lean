import Mathlib.Data.List.Basic
import Mathlib.Tactic.Common
import PayloadSchema.Descriptor.Basic

/-!
# Names of types are read in one way

The name of a type is written as a term: a head, and the arguments of the head in angle brackets, or an
element in square brackets. If no head has a bracket, comma or semicolon in it, a name can be read as a
term in one way only, even if something else follows that starts with one of them.

* `Term.chars_injective` — terms with plain heads that are written alike are the same.
-/

namespace PayloadSchema

/-- A type as its name is made up. -/
inductive Term where
  /-- A head with arguments. -/
  | node (head : String) (arguments : List Term)
  /-- Elements, any number of them. -/
  | slice (element : Term)
  /-- Elements, as many as a text says. -/
  | array (element : Term) (length : String)

/-- Where a head ends. -/
def delimiters : List Char := ['<', '>', ',', '[', ']', ';']

/-- A text without delimiters. -/
def IsPlain (text : String) : Prop := ∀ c ∈ text.toList, c ∉ delimiters

-- not by the instance for all characters that are there, which would go through every one
instance (text : String) : Decidable (IsPlain text) :=
  decidable_of_iff (text.toList.all (· ∉ delimiters) = true) (by simp [IsPlain])

/-- Plain texts may be put together. -/
theorem IsPlain.append {text text' : String} (h : IsPlain text) (h' : IsPlain text') :
    IsPlain (text ++ text') := by
  intro c hc
  rw [String.toList_append, List.mem_append] at hc
  rcases hc with hc | hc
  · exact h c hc
  · exact h' c hc

namespace Term

/-- Induction over terms. -/
theorem induction {P : Term → Prop} (node : ∀ head ts, (∀ t ∈ ts, P t) → P (.node head ts))
    (slice : ∀ element, P element → P (.slice element))
    (array : ∀ element length, P element → P (.array element length)) : ∀ t, P t
  | .node head ts => node head ts fun t _ => induction node slice array t
  | .slice element => slice element (induction node slice array element)
  | .array element length => array element length (induction node slice array element)

mutual
def chars : Term → List Char
  | .node head ts => head.toList ++ argumentChars ts
  | .slice element => '[' :: (element.chars ++ [']'])
  | .array element length => '[' :: (element.chars ++ ';' :: ' ' :: (length.toList ++ [']']))
/-- How the arguments of a head are written. -/
def argumentChars : List Term → List Char
  | [] => []
  | t :: ts => '<' :: (t.chars ++ charsAfter ts)
/-- How the arguments after the first are written. -/
def charsAfter : List Term → List Char
  | [] => ['>']
  | t :: ts => ',' :: ' ' :: (t.chars ++ charsAfter ts)
end

mutual
/-- All heads are plain. -/
def HasPlainHeads : Term → Prop
  | .node head ts => IsPlain head ∧ HaveAllPlainHeads ts
  | .slice element => element.HasPlainHeads
  | .array element length => element.HasPlainHeads ∧ IsPlain length
/-- All heads of several terms are plain. -/
def HaveAllPlainHeads : List Term → Prop
  | [] => True
  | t :: ts => t.HasPlainHeads ∧ HaveAllPlainHeads ts
end

/-- A list of terms has plain heads if each of them has. -/
theorem haveAllPlainHeads_iff {ts : List Term} : HaveAllPlainHeads ts ↔ ∀ t ∈ ts, t.HasPlainHeads := by
  induction ts with
  | nil => simp [HaveAllPlainHeads]
  | cons t ts ih => simp [HaveAllPlainHeads, ih]

/-! ## Written terms -/

/-- A head before one text in angle brackets. -/
theorem toList_around {opening head text : String} {k : Term} (hopening : opening = head ++ "<")
    (h : text.toList = k.chars) : (opening ++ text ++ ">").toList = (node head [k]).chars := by
  rw [hopening, chars, argumentChars, charsAfter, String.toList_append, String.toList_append,
    String.toList_append, h, List.append_assoc, List.append_assoc]
  rfl

/-- A head before two texts in angle brackets. -/
theorem toList_around_two {opening head text text' : String} {k k' : Term} (hopening : opening = head ++ "<")
    (h : text.toList = k.chars) (h' : text'.toList = k'.chars) :
    (opening ++ text ++ ", " ++ text' ++ ">").toList = (node head [k, k']).chars := by
  rw [hopening, chars, argumentChars, charsAfter, charsAfter, String.toList_append, String.toList_append,
    String.toList_append, String.toList_append, String.toList_append, h, h', List.append_assoc,
    List.append_assoc, List.append_assoc, List.append_assoc]
  rfl

/-- A text in square brackets. -/
theorem toList_slice {text : String} {k : Term} (h : text.toList = k.chars) :
    ("[" ++ text ++ "]").toList = (slice k).chars := by
  rw [chars, String.toList_append, String.toList_append, h]
  rfl

/-- A text in square brackets, and how often. -/
theorem toList_array {text : String} {k : Term} (h : text.toList = k.chars) (length : String) :
    ("[" ++ text ++ "; " ++ length ++ "]").toList = (array k length).chars := by
  rw [chars, String.toList_append, String.toList_append, String.toList_append, String.toList_append, h,
    List.append_assoc, List.append_assoc, List.append_assoc]
  rfl

/-! ## Reading -/

/-- Plain characters before a delimiter end at the same place in both readings. -/
theorem plain_append_injective {cs cs' rest rest' : List Char} (h : ∀ c ∈ cs, c ∉ delimiters)
    (h' : ∀ c ∈ cs', c ∉ delimiters) (hrest : ∀ c, rest.head? = some c → c ∈ delimiters)
    (hrest' : ∀ c, rest'.head? = some c → c ∈ delimiters) (heq : cs ++ rest = cs' ++ rest') :
    cs = cs' ∧ rest = rest' := by
  induction cs generalizing cs' with
  | nil =>
      cases cs' with
      | nil => exact ⟨rfl, heq⟩
      | cons c cs' =>
          -- The longer text would have a delimiter where the other still has a plain character.
          have hhead : rest.head? = some c := by rw [show rest = _ from heq]; rfl
          exact absurd (hrest c hhead) (h' c List.mem_cons_self)
  | cons c cs ih =>
      cases cs' with
      | nil =>
          have hhead : rest'.head? = some c := by rw [show rest' = _ from heq.symm]; rfl
          exact absurd (hrest' c hhead) (h c List.mem_cons_self)
      | cons c' cs' =>
          obtain ⟨rfl, htail⟩ := List.cons.inj heq
          obtain ⟨rfl, hrests⟩ := ih (fun d hd => h d (List.mem_cons_of_mem c hd))
            (fun d hd => h' d (List.mem_cons_of_mem c hd)) htail
          exact ⟨rfl, hrests⟩

/-- What may follow a name: nothing, or a delimiter that opens nothing. -/
def Follows (rest : List Char) : Prop := ∀ c, rest.head? = some c → c ∈ delimiters ∧ c ≠ '<' ∧ c ≠ '['

theorem follows_nil : Follows [] := by
  intro c hc
  cases hc

/-- After a term a delimiter may stand that opens nothing. -/
theorem follows_cons {c : Char} (h : c ∈ delimiters ∧ c ≠ '<' ∧ c ≠ '[') (rest : List Char) :
    Follows (c :: rest) := by
  intro d hd
  cases hd
  exact h

/-- The arguments that are left may stand after a term. -/
theorem follows_charsAfter (ts : List Term) (rest : List Char) : Follows (charsAfter ts ++ rest) := by
  cases ts with
  | nil => exact follows_cons (by decide) _
  | cons t ts => exact follows_cons (by decide) _

/-- After a head there is a delimiter, if anything. -/
theorem head?_argumentChars {ts : List Term} {rest : List Char} (hrest : Follows rest) (c : Char)
    (hc : (argumentChars ts ++ rest).head? = some c) : c ∈ delimiters ∧ c ≠ '[' := by
  cases ts with
  | nil => exact ⟨(hrest c hc).1, (hrest c hc).2.2⟩
  | cons t ts =>
      cases hc
      decide

/-- A term with a head does not start with a bracket. -/
theorem node_ne_bracket {head : String} {ts : List Term} {rest more : List Char} (h : IsPlain head)
    (hrest : Follows rest) : (node head ts).chars ++ rest ≠ '[' :: more := by
  intro heq
  rw [chars, List.append_assoc] at heq
  cases hhead : head.toList with
  | nil =>
      rw [hhead, List.nil_append] at heq
      exact (head?_argumentChars hrest '[' (by rw [heq]; rfl)).2 rfl
  | cons c cs =>
      rw [hhead] at heq
      obtain ⟨rfl, -⟩ := List.cons.inj heq
      exact h '[' (by rw [hhead]; exact List.mem_cons_self) (by decide)

mutual
/-- A name that something follows can be read in one way. -/
theorem chars_append_injective : ∀ (t t' : Term) {rest rest' : List Char}, t.HasPlainHeads →
    t'.HasPlainHeads → Follows rest → Follows rest' → t.chars ++ rest = t'.chars ++ rest' →
      t = t' ∧ rest = rest'
  | .node head ts, .node head' ts', rest, rest', h, h', hrest, hrest', heq => by
      rw [chars, chars, List.append_assoc, List.append_assoc] at heq
      -- A head is plain and what follows it is not, so the heads end at the same place.
      obtain ⟨hhead, harguments⟩ := plain_append_injective h.1 h'.1
        (fun c hc => (head?_argumentChars hrest c hc).1) (fun c hc => (head?_argumentChars hrest' c hc).1)
        heq
      obtain ⟨rfl, hrests⟩ := argumentChars_append_injective ts ts' h.2 h'.2 hrest hrest' harguments
      exact ⟨by rw [String.toList_inj.1 hhead], hrests⟩
  | .slice element, .slice element', rest, rest', h, h', hrest, hrest', heq => by
      simp only [chars, List.cons_append, List.append_assoc, List.nil_append, List.cons.injEq,
        true_and] at heq
      obtain ⟨rfl, hrests⟩ := chars_append_injective element element' h h' (follows_cons (by decide) _)
        (follows_cons (by decide) _) heq
      exact ⟨rfl, (List.cons.inj hrests).2⟩
  | .array element length, .array element' length', rest, rest', h, h', hrest, hrest', heq => by
      simp only [chars, List.cons_append, List.append_assoc, List.nil_append, List.cons.injEq,
        true_and] at heq
      obtain ⟨rfl, hafter⟩ := chars_append_injective element element' h.1 h'.1
        (follows_cons (by decide) _) (follows_cons (by decide) _) heq
      simp only [List.cons.injEq, true_and] at hafter
      obtain ⟨hlength, hrests⟩ := plain_append_injective h.2 h'.2
        (fun c hc => (follows_cons (by decide) _ c hc).1) (fun c hc => (follows_cons (by decide) _ c hc).1)
        hafter
      exact ⟨by rw [String.toList_inj.1 hlength], (List.cons.inj hrests).2⟩
  -- After the element a slice closes and an array states its length.
  | .slice element, .array element' length', rest, rest', h, h', hrest, hrest', heq => by
      simp only [chars, List.cons_append, List.append_assoc, List.nil_append, List.cons.injEq,
        true_and] at heq
      obtain ⟨-, hrests⟩ := chars_append_injective element element' h h'.1 (follows_cons (by decide) _)
        (follows_cons (by decide) _) heq
      exact absurd (List.cons.inj hrests).1 (by decide)
  | .array element length, .slice element', rest, rest', h, h', hrest, hrest', heq => by
      simp only [chars, List.cons_append, List.append_assoc, List.nil_append, List.cons.injEq,
        true_and] at heq
      obtain ⟨-, hrests⟩ := chars_append_injective element element' h.1 h' (follows_cons (by decide) _)
        (follows_cons (by decide) _) heq
      exact absurd (List.cons.inj hrests).1 (by decide)
  | .node _ _, .slice _, _, _, h, _, hrest, _, heq => absurd heq (node_ne_bracket h.1 hrest)
  | .node _ _, .array _ _, _, _, h, _, hrest, _, heq => absurd heq (node_ne_bracket h.1 hrest)
  | .slice _, .node _ _, _, _, _, h', _, hrest', heq => absurd heq.symm (node_ne_bracket h'.1 hrest')
  | .array _ _, .node _ _, _, _, _, h', _, hrest', heq => absurd heq.symm (node_ne_bracket h'.1 hrest')
/-- From what arguments are written as they can be told, and so can what stands after them. -/
theorem argumentChars_append_injective : ∀ (ts ts' : List Term) {rest rest' : List Char},
    HaveAllPlainHeads ts → HaveAllPlainHeads ts' → Follows rest → Follows rest' →
      argumentChars ts ++ rest = argumentChars ts' ++ rest' → ts = ts' ∧ rest = rest'
  | [], [], _, _, _, _, _, _, heq => ⟨rfl, heq⟩
  | [], _ :: _, rest, _, _, _, hrest, _, heq => by
      -- One text opens a bracket where the other has none.
      have hhead : rest.head? = some '<' := by rw [show rest = _ from heq]; rfl
      exact absurd rfl (hrest _ hhead).2.1
  | _ :: _, [], _, rest', _, _, _, hrest', heq => by
      have hhead : rest'.head? = some '<' := by rw [show rest' = _ from heq.symm]; rfl
      exact absurd rfl (hrest' _ hhead).2.1
  | t :: ts, t' :: ts', rest, rest', h, h', hrest, hrest', heq => by
      simp only [argumentChars, List.cons_append, List.append_assoc, List.cons.injEq, true_and] at heq
      obtain ⟨rfl, hafter⟩ := chars_append_injective t t' h.1 h'.1 (follows_charsAfter ts rest)
        (follows_charsAfter ts' rest') heq
      obtain ⟨rfl, hrests⟩ := charsAfter_append_injective ts ts' h.2 h'.2 hafter
      exact ⟨rfl, hrests⟩
/-- From what the other arguments are written as they can be told, and so can what stands after them. -/
theorem charsAfter_append_injective : ∀ (ts ts' : List Term) {rest rest' : List Char},
    HaveAllPlainHeads ts → HaveAllPlainHeads ts' →
      charsAfter ts ++ rest = charsAfter ts' ++ rest' → ts = ts' ∧ rest = rest'
  | [], [], _, _, _, _, heq => ⟨rfl, (List.cons.inj heq).2⟩
  | [], _ :: _, _, _, _, _, heq => absurd (List.cons.inj heq).1 (by decide)
  | _ :: _, [], _, _, _, _, heq => absurd (List.cons.inj heq).1 (by decide)
  | t :: ts, t' :: ts', rest, rest', h, h', heq => by
      simp only [charsAfter, List.cons_append, List.append_assoc, List.cons.injEq, true_and] at heq
      obtain ⟨rfl, hafter⟩ := chars_append_injective t t' h.1 h'.1 (follows_charsAfter ts rest)
        (follows_charsAfter ts' rest') heq
      obtain ⟨rfl, hrests⟩ := charsAfter_append_injective ts ts' h.2 h'.2 hafter
      exact ⟨rfl, hrests⟩
end

/-- A name can be read in one way. -/
theorem chars_injective {t t' : Term} (h : t.HasPlainHeads) (h' : t'.HasPlainHeads)
    (heq : t.chars = t'.chars) : t = t' :=
  (chars_append_injective t t' h h' follows_nil follows_nil (by rw [heq])).1

end Term

end PayloadSchema
