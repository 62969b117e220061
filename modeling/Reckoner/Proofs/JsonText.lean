import Mathlib.Data.List.Basic
import Reckoner.Json
import Reckoner.Proofs.Digits

/-!
# What the text of a JSON value tells

The text of a JSON value tells the value, except that a float shows only how it is written, and the
infinities and NaNs show as little as `null` (`Json.shape`). Texts of values stand inside each other
without any mark of their lengths, so the statement to carry through the nesting is about a text with
something behind it: in front of a comma or a closing bracket, `v.compact` tells the shape of `v` and
also where it ends (`Json.tells_compact`).
-/

namespace Reckoner.Json

/-! ### Shapes -/

/-- What the text of a value shows of it: of a number or a null it shows the characters only. -/
inductive Shape where
  | word (cs : List Char)
  | string (s : String)
  | array (items : List Shape)
  | object (fields : List (String × Shape))

theorem sizeOf_item_lt {items : List Json} {v : Json} (h : v ∈ items) :
    sizeOf v < sizeOf (array items) := by
  have := List.sizeOf_lt_of_mem h
  simp only [array.sizeOf_spec]
  omega

theorem sizeOf_field_lt {fields : List (String × Json)} {f : String × Json} (h : f ∈ fields) :
    sizeOf f.2 < sizeOf (object fields) := by
  have := List.sizeOf_lt_of_mem h
  obtain ⟨k, v⟩ := f
  simp only [object.sizeOf_spec, Prod.mk.sizeOf_spec] at *
  omega

def shape : Json → Shape
  | null => .word "null".toList
  | nat n => .word n.repr.toList
  | number x => .word (layout.write x).toList
  | string s => .string s
  | array items => .array (items.map shape)
  | object fields => .object (fields.map fun f => (f.1, f.2.shape))
termination_by v => sizeOf v
decreasing_by
  · exact sizeOf_item_lt ‹_›
  · exact sizeOf_field_lt ‹_›

/-! ### Texts that tell something -/

/-- The characters that stand behind a value, and never within a word. -/
def closers : List Char := [',', ']', '\x7d']

/-- The characters in front of the values that are no words. -/
def openers : List Char := ['"', '[', '\x7b']

/-- Nothing follows, or a character that ends a value. -/
def Follows (r : List Char) : Prop := ∀ c ∈ r.head?, c ∈ closers

/-- The text `f a` tells `g a` and where it ends, if it stands in front of what ends a value. -/
def Tells {α β : Type} (f : α → List Char) (g : α → β) (a : α) : Prop :=
  ∀ b r r', Follows r → Follows r' → f a ++ r = f b ++ r' → g a = g b ∧ r = r'

/-- The texts with commas between them. -/
def separated {α : Type} (f : α → List Char) : List α → List Char
  | [] => []
  | x :: xs => f x ++ xs.flatMap fun y => ',' :: f y

theorem follows_nil : Follows [] := nofun

section
variable {α β : Type} {f : α → List Char} {g : α → β} {xs ys : List α} {close : Char}
  {r r' : List Char}

theorem follows_commas (hclose : close ∈ [']', '\x7d']) (xs : List α) (r : List Char) :
    Follows ((xs.flatMap fun y => ',' :: f y) ++ close :: r) := by
  intro c hc
  cases xs with
  | nil =>
    obtain rfl : close = c := by simpa using hc
    exact List.mem_cons_of_mem _ hclose
  | cons y ys =>
    obtain rfl : ',' = c := by simpa using hc
    exact List.mem_cons_self

theorem commas_append_inj (hclose : close ∈ [']', '\x7d']) (hf : ∀ x ∈ xs, Tells f g x)
    (h : (xs.flatMap fun y => ',' :: f y) ++ close :: r =
      (ys.flatMap fun y => ',' :: f y) ++ close :: r') : xs.map g = ys.map g ∧ r = r' := by
  have hcomma : close ≠ ',' := by
    rintro rfl
    exact absurd hclose (by decide)
  induction xs generalizing ys with
  | nil =>
    cases ys with
    | nil => exact ⟨rfl, (List.cons.inj h).2⟩
    | cons y ys => exact absurd (List.cons.inj h).1 hcomma
  | cons x xs ih =>
    cases ys with
    | nil => exact absurd (List.cons.inj h).1.symm hcomma
    | cons y ys =>
      obtain ⟨hx, hxs⟩ := List.forall_mem_cons.1 hf
      rw [List.flatMap_cons, List.flatMap_cons, List.append_assoc, List.append_assoc] at h
      obtain ⟨hg, hrest⟩ := hx y _ _ (follows_commas hclose xs r) (follows_commas hclose ys r')
        (List.cons.inj h).2
      obtain ⟨hgs, hr⟩ := ih hxs hrest
      exact ⟨by rw [List.map_cons, List.map_cons, hg, hgs], hr⟩

/-- In front of the closing bracket, texts with commas between them tell all that each of them
tells. -/
theorem separated_append_inj (hclose : close ∈ [']', '\x7d']) (hf : ∀ x ∈ xs, Tells f g x)
    (hhead : ∀ x r, (f x ++ r).head? ≠ some close)
    (h : separated f xs ++ close :: r = separated f ys ++ close :: r') :
    xs.map g = ys.map g ∧ r = r' := by
  cases xs with
  | nil =>
    cases ys with
    | nil => exact ⟨rfl, (List.cons.inj h).2⟩
    | cons y ys =>
      rw [separated, separated, List.append_assoc] at h
      exact absurd (congrArg List.head? h).symm (hhead y _)
  | cons x xs =>
    cases ys with
    | nil =>
      rw [separated, separated, List.append_assoc] at h
      exact absurd (congrArg List.head? h) (hhead x _)
    | cons y ys =>
      obtain ⟨hx, hxs⟩ := List.forall_mem_cons.1 hf
      rw [separated, separated, List.append_assoc, List.append_assoc] at h
      obtain ⟨hg, hrest⟩ := hx y _ _ (follows_commas hclose xs r) (follows_commas hclose ys r') h
      obtain ⟨hgs, hr⟩ := commas_append_inj hclose hxs hrest
      exact ⟨by rw [List.map_cons, List.map_cons, hg, hgs], hr⟩

end

/-! ### Strings -/

/-- The value of a hexadecimal digit. -/
def hexValue (c : Char) : Nat := if c.isDigit then c.toNat - '0'.toNat else c.toNat - 'a'.toNat + 10

/-- The character that an escape of one letter stands for. -/
def letterEscape : Char → Char
  | 'b' => '\x08'
  | 'f' => '\x0C'
  | 'n' => '\n'
  | 'r' => '\r'
  | 't' => '\t'
  | c => c

/-- The first character of what is written in a string, and what is left. -/
def unescape : List Char → Option (Char × List Char)
  | [] => none
  | '\\' :: 'u' :: _ :: _ :: h :: l :: r => some (Char.ofNat (16 * hexValue h + hexValue l), r)
  | '\\' :: c :: r => some (letterEscape c, r)
  | c :: r => some (c, r)

theorem hexValue_digitChar : ∀ n < 16, hexValue n.digitChar = n := by decide

theorem unescape_escape (c : Char) (r : List Char) : unescape (escape c ++ r) = some (c, r) := by
  unfold escape
  split
  iterate 7 rfl
  next hquote hslash _ _ _ _ _ =>
    split
    · next hlow =>
      have hhigh := hexValue_digitChar (c.toNat / 16) (by omega)
      have hlow := hexValue_digitChar (c.toNat % 16) (by omega)
      have hc : 16 * (c.toNat / 16) + c.toNat % 16 = c.toNat := by omega
      simp only [List.cons_append, List.nil_append, unescape, hhigh, hlow, hc, Char.ofNat_toNat]
    · rw [List.singleton_append, unescape.eq_def]
      split <;> simp_all

theorem escape_append_inj {c d : Char} {r r' : List Char} (h : escape c ++ r = escape d ++ r') :
    c = d ∧ r = r' := by
  have hsome := unescape_escape c r
  rw [h, unescape_escape] at hsome
  cases hsome
  exact ⟨rfl, rfl⟩

theorem head?_escape_ne (c : Char) (r : List Char) : (escape c ++ r).head? ≠ some '"' := by
  unfold escape
  split
  iterate 7 simp
  next hquote _ _ _ _ _ _ => split <;> simp_all

theorem flatMap_escape_append_inj {cs ds r r' : List Char}
    (h : cs.flatMap escape ++ '"' :: r = ds.flatMap escape ++ '"' :: r') : cs = ds ∧ r = r' := by
  induction cs generalizing ds with
  | nil =>
    cases ds with
    | nil => exact ⟨rfl, (List.cons.inj h).2⟩
    | cons d ds =>
      rw [List.flatMap_cons, List.append_assoc] at h
      exact absurd (congrArg List.head? h).symm (head?_escape_ne d _)
  | cons c cs ih =>
    cases ds with
    | nil =>
      rw [List.flatMap_cons, List.append_assoc] at h
      exact absurd (congrArg List.head? h) (head?_escape_ne c _)
    | cons d ds =>
      rw [List.flatMap_cons, List.flatMap_cons, List.append_assoc, List.append_assoc] at h
      obtain ⟨rfl, hrest⟩ := escape_append_inj h
      obtain ⟨rfl, hr⟩ := ih hrest
      exact ⟨rfl, hr⟩

/-- A string tells where it ends, whatever follows. -/
theorem quote_append_inj {s t : String} {r r' : List Char}
    (h : (quote s).toList ++ r = (quote t).toList ++ r') : s = t ∧ r = r' := by
  simp only [quote, String.toList_ofList, List.cons_append, List.append_assoc,
    List.nil_append] at h
  obtain ⟨hs, hr⟩ := flatMap_escape_append_inj (List.cons.inj h).2
  exact ⟨String.toList_inj.1 hs, hr⟩

/-! ### Words -/

/-- The character may stand in a word. -/
def Plain (c : Char) : Prop := c ∉ closers ++ openers

instance (c : Char) : Decidable (Plain c) := inferInstanceAs (Decidable (¬ _))

theorem word_append_inj {cs ds r r' : List Char} (hcs : ∀ c ∈ cs, Plain c) (hds : ∀ c ∈ ds, Plain c)
    (hr : Follows r) (hr' : Follows r') (h : cs ++ r = ds ++ r') : cs = ds ∧ r = r' := by
  -- A character of a word does not follow a value.
  have hend : ∀ {c : Char} {cs r r' : List Char}, Plain c → Follows r → r ≠ c :: cs ++ r' := by
    rintro c cs r r' hc hr rfl
    exact hc (List.mem_append_left openers (hr c rfl))
  induction cs generalizing ds with
  | nil =>
    cases ds with
    | nil => exact ⟨rfl, h⟩
    | cons d ds => exact absurd h (hend (hds d List.mem_cons_self) hr)
  | cons c cs ih =>
    cases ds with
    | nil => exact absurd h.symm (hend (hcs c List.mem_cons_self) hr')
    | cons d ds =>
      obtain ⟨rfl, hrest⟩ := List.cons.inj h
      obtain ⟨rfl, hr⟩ := ih (List.forall_mem_cons.1 hcs).2 (List.forall_mem_cons.1 hds).2 hrest
      exact ⟨rfl, hr⟩

theorem plain_of_isDigit {c : Char} (h : c.isDigit) : Plain c := by
  intro hc
  simp only [closers, openers, List.mem_append, List.mem_cons, List.not_mem_nil, or_false] at hc
  rcases hc with (rfl | rfl | rfl) | rfl | rfl | rfl <;> exact absurd h (by decide)

/-! ### Values -/

/-- The character in front of a value that is not a word. -/
def opening : Json → Option Char
  | string _ => some '"'
  | array _ => some '['
  | object _ => some '\x7b'
  | _ => none

theorem toList_compactItems (items : List Json) :
    (compactItems items).toList = separated (fun v => v.compact.toList) items := by
  induction items with
  | nil => rfl
  | cons v items ih =>
    cases items with
    | nil => simp [compactItems, separated]
    | cons w items =>
      rw [compactItems, String.toList_append, String.toList_append, ih]
      simp [separated]

/-- A field as it is written. -/
def fieldText (f : String × Json) : List Char := (quote f.1).toList ++ ':' :: f.2.compact.toList

theorem toList_compactFields (fields : List (String × Json)) :
    (compactFields fields).toList = separated fieldText fields := by
  induction fields with
  | nil => rfl
  | cons f fields ih =>
    obtain ⟨k, v⟩ := f
    cases fields with
    | nil => simp [compactFields, separated, fieldText]
    | cons g fields =>
      rw [compactFields, String.toList_append, String.toList_append, ih]
      simp [separated, fieldText]

theorem toList_compact_array (items : List Json) (r : List Char) : (compact (array items)).toList ++ r =
    '[' :: (separated (fun v => v.compact.toList) items ++ ']' :: r) := by
  simp [compact, toList_compactItems]

theorem toList_compact_object (fields : List (String × Json)) (r : List Char) :
    (compact (object fields)).toList ++ r = '\x7b' :: (separated fieldText fields ++ '\x7d' :: r) := by
  simp [compact, toList_compactFields]

/-- What has no mark in front is a word. -/
theorem word_of_opening {v : Json} (h : v.opening = none) : v.shape = .word v.compact.toList ∧
    v.compact.toList ≠ [] ∧ ∀ c ∈ v.compact.toList, Plain c := by
  cases v with
  | null =>
    refine ⟨by rw [shape, compact], by decide, ?_⟩
    simp [compact, Plain, closers, openers]
  | nat n =>
    have hdigits : n.repr.toList = Nat.toDigits 10 n := Nat.toList_repr
    refine ⟨by rw [shape, compact], ?_, ?_⟩
    · rw [compact, hdigits]
      exact Nat.toDigits_ne_nil
    · rw [compact, hdigits]
      intro c hc
      exact plain_of_isDigit (Nat.isDigit_of_mem_toDigits (by decide) (by decide) hc)
  | number x =>
    refine ⟨by rw [shape, compact], ?_, ?_⟩
    · rw [compact]
      intro hnil
      exact Decimal.Layout.write_ne_empty (by decide) (by decide) (by decide) x
        (String.toList_eq_nil_iff.1 hnil)
    · rw [compact]
      refine Decimal.Layout.forall_mem_write (fun _ => plain_of_isDigit) ?_ ?_ ?_ ?_ x <;>
        simp [Decimal.marks, layout, Plain, closers, openers]
  | string | array | object => cases h

theorem head?_compact (v : Json) (r : List Char) :
    ∃ c, (v.compact.toList ++ r).head? = some c ∧
      (v.opening = some c ∧ c ∈ openers ∨ v.opening = none ∧ Plain c) := by
  cases hv : v.opening with
  | none =>
    obtain ⟨-, hne, hplain⟩ := word_of_opening hv
    obtain ⟨c, cs, hcs⟩ := List.exists_cons_of_ne_nil hne
    exact ⟨c, by rw [hcs]; rfl, .inr ⟨rfl, hplain c (by simp [hcs])⟩⟩
  | some c =>
    refine ⟨c, ?_, .inl ⟨rfl, ?_⟩⟩
    · cases v <;> cases hv <;> simp [compact, quote]
    · cases v <;> cases hv <;> decide

theorem head?_compact_ne {close : Char} (hclose : close ∈ [']', '\x7d']) (v : Json) (r : List Char) :
    (v.compact.toList ++ r).head? ≠ some close := by
  obtain ⟨c, hc, h⟩ := head?_compact v r
  rw [hc]
  rintro ⟨rfl⟩
  simp only [List.mem_cons, List.not_mem_nil, or_false] at hclose
  rcases h with ⟨-, h⟩ | ⟨-, h⟩ <;> rcases hclose with rfl | rfl <;> exact absurd h (by decide)

theorem opening_eq {v w : Json} {r r' : List Char}
    (h : v.compact.toList ++ r = w.compact.toList ++ r') : v.opening = w.opening := by
  obtain ⟨c, hc, hv⟩ := head?_compact v r
  obtain ⟨d, hd, hw⟩ := head?_compact w r'
  obtain rfl : c = d := by
    rw [h, hd] at hc
    exact (Option.some.inj hc).symm
  have hplain : c ∈ openers → ¬ Plain c := fun hmem hp =>
    hp (List.mem_append_right closers hmem)
  rcases hv with ⟨hv, hm⟩ | ⟨hv, hp⟩ <;> rcases hw with ⟨hw, hm'⟩ | ⟨hw, hp'⟩
  · rw [hv, hw]
  · exact absurd hp' (hplain hm)
  · exact absurd hp (hplain hm')
  · rw [hv, hw]

theorem tells_word {v : Json} (hv : v.opening = none) :
    Tells (fun w => w.compact.toList) shape v := by
  intro w r r' hr hr' h
  obtain ⟨hshape, -, hplain⟩ := word_of_opening hv
  obtain ⟨hshape', -, hplain'⟩ := word_of_opening ((opening_eq h).symm.trans hv)
  obtain ⟨hcs, hrest⟩ := word_append_inj hplain hplain' hr hr' h
  exact ⟨by rw [hshape, hshape', hcs], hrest⟩

theorem tells_field {f : String × Json} (hf : Tells (fun w => w.compact.toList) shape f.2) :
    Tells fieldText (fun f => (f.1, f.2.shape)) f := by
  intro g r r' hr hr' h
  rw [fieldText, fieldText, List.append_assoc, List.append_assoc] at h
  obtain ⟨hkey, hrest⟩ := quote_append_inj h
  obtain ⟨hshape, hr⟩ := hf g.2 r r' hr hr' (List.cons.inj hrest).2
  exact ⟨Prod.ext hkey hshape, hr⟩

/-- The text of a value tells its shape and where it ends. -/
theorem tells_compact : ∀ v : Json, Tells (fun w => w.compact.toList) shape v
  | null | nat _ | number _ => tells_word rfl
  | string s => by
    intro w r r' _ _ h
    cases w with
    | string t =>
      obtain ⟨rfl, hrest⟩ := quote_append_inj h
      exact ⟨rfl, hrest⟩
    | _ => exact absurd (opening_eq h) (by simp [opening])
  | array items => by
    intro w r r' _ _ h
    cases w with
    | array items' =>
      have hclose : ']' ∈ [']', '\x7d'] := by decide
      dsimp only at h
      rw [toList_compact_array, toList_compact_array] at h
      obtain ⟨hitems, hrest⟩ := separated_append_inj hclose (fun u _ => tells_compact u)
        (head?_compact_ne hclose) (List.cons.inj h).2
      exact ⟨by rw [shape, shape, hitems], hrest⟩
    | _ => exact absurd (opening_eq h) (by simp [opening])
  | object fields => by
    intro w r r' _ _ h
    cases w with
    | object fields' =>
      have hclose : '\x7d' ∈ [']', '\x7d'] := by decide
      have hhead : ∀ f r, (fieldText f ++ r).head? ≠ some '\x7d' := by
        intro f r
        simp [fieldText, quote]
      dsimp only at h
      rw [toList_compact_object, toList_compact_object] at h
      obtain ⟨hfields, hrest⟩ := separated_append_inj hclose
        (fun f _ => tells_field (tells_compact f.2)) hhead (List.cons.inj h).2
      exact ⟨by rw [shape, shape, hfields], hrest⟩
    | _ => exact absurd (opening_eq h) (by simp [opening])
termination_by v => sizeOf v
decreasing_by
  · exact sizeOf_item_lt ‹_›
  · exact sizeOf_field_lt ‹_›

/-- Values that are written alike have the same shape. -/
theorem shape_eq_of_compact_eq {v w : Json} (h : v.compact = w.compact) : v.shape = w.shape := by
  have htext : v.compact.toList ++ [] = w.compact.toList ++ [] := by rw [h]
  exact (tells_compact v w [] [] follows_nil follows_nil htext).1

/-! ### What shapes tell -/

@[simp] theorem shape_nat_inj {n m : Nat} : (nat n).shape = (nat m).shape ↔ n = m := by
  rw [shape, shape, Shape.word.injEq, Nat.toList_repr, Nat.toList_repr]
  constructor
  · intro h
    simpa [Nat.ofDigitChars_toDigits] using congrArg (Nat.ofDigitChars 10 · 0) h
  · exact congrArg _

@[simp] theorem shape_string_inj {s t : String} : (string s).shape = (string t).shape ↔ s = t := by
  rw [shape, shape, Shape.string.injEq]

@[simp] theorem shape_array_inj {items items' : List Json} :
    (array items).shape = (array items').shape ↔ items.map shape = items'.map shape := by
  rw [shape, shape, Shape.array.injEq]

@[simp] theorem shape_object_cons_inj {k k' : String} {v v' : Json}
    {fields fields' : List (String × Json)} :
    (object ((k, v) :: fields)).shape = (object ((k', v') :: fields')).shape ↔
      k = k' ∧ v.shape = v'.shape ∧ (object fields).shape = (object fields').shape := by
  simp only [shape, Shape.object.injEq, List.map_cons, List.cons.injEq, Prod.mk.injEq, and_assoc]

end Reckoner.Json
