import DocTransfer.Proofs.Path.Below

/-! # The order of paths

Paths are compared component by component, and names by their bytes. What lies below one name of a
folder comes before all that lies below a later one, however the names go on. -/

namespace DocTransfer

/-! ## Bytes of a text -/

namespace Text

/-- The bytes of a text in UTF-8. -/
def bytes (cs : List Char) : List UInt8 :=
  cs.flatMap String.utf8EncodeChar

theorem utf8EncodeChar_ne_nil (c : Char) : String.utf8EncodeChar c ≠ [] := by
  unfold String.utf8EncodeChar
  simp only
  split_ifs <;> simp

/-- Of two characters the one with the lower number has the lower bytes, whatever follows them. -/
theorem utf8EncodeChar_append_lt {c d : Char} (h : c < d) (xs ys : List UInt8) :
    String.utf8EncodeChar c ++ xs < String.utf8EncodeChar d ++ ys := by
  have hval : c.val.toNat < d.val.toNat := UInt32.lt_iff_toNat_lt.mp (Char.lt_def.mp h)
  have hrange : ∀ e : Char, e.val.toNat < 1114112 := by
    intro e
    have hvalid : e.val.toNat < 0xd800 ∨ 0xdfff < e.val.toNat ∧ e.val.toNat < 0x110000 := e.valid
    omega
  have hc := hrange c
  have hd := hrange d
  -- compared as numbers to the base 64, digit by digit
  have hdigits : ∀ n : Nat, n / 4096 = n / 64 / 64 ∧ n / 262144 = n / 64 / 64 / 64 := by omega
  have hstep : ∀ m n : Nat, m < n → m / 64 < n / 64 ∨ m / 64 = n / 64 ∧ m % 64 < n % 64 := by omega
  have hlex : c.val.toNat / 64 / 64 / 64 < d.val.toNat / 64 / 64 / 64 ∨
      c.val.toNat / 64 / 64 / 64 = d.val.toNat / 64 / 64 / 64 ∧
        (c.val.toNat / 64 / 64 % 64 < d.val.toNat / 64 / 64 % 64 ∨
          c.val.toNat / 64 / 64 % 64 = d.val.toNat / 64 / 64 % 64 ∧
            (c.val.toNat / 64 % 64 < d.val.toNat / 64 % 64 ∨
              c.val.toNat / 64 % 64 = d.val.toNat / 64 % 64 ∧
                c.val.toNat % 64 < d.val.toNat % 64)) := by
    have h₁ := hstep _ _ hval
    have h₂ := hstep (c.val.toNat / 64) (d.val.toNat / 64)
    have h₃ := hstep (c.val.toNat / 64 / 64) (d.val.toNat / 64 / 64)
    omega
  unfold String.utf8EncodeChar
  simp only
  split_ifs
  all_goals
    simp only [List.cons_append, List.nil_append, List.cons_lt_cons_iff, UInt8.lt_iff_toNat_lt,
      ← UInt8.toNat_inj, UInt8.toNat_ofNat', (hdigits _).1, (hdigits _).2]
    omega

theorem bytes_lt {as bs : List Char} (h : as < bs) : bytes as < bytes bs := by
  induction h with
  | @nil b bs =>
      rw [bytes, bytes, List.flatMap_nil, List.flatMap_cons]
      obtain ⟨x, xs, hx⟩ := List.exists_cons_of_ne_nil (utf8EncodeChar_ne_nil b)
      rw [hx]
      exact List.Lex.nil
  | @cons a as bs _ ih =>
      rw [bytes, bytes, List.flatMap_cons, List.flatMap_cons]
      exact List.append_left_lt ih
  | @rel a as b bs hab =>
      rw [bytes, bytes, List.flatMap_cons, List.flatMap_cons]
      exact utf8EncodeChar_append_lt hab _ _

end Text

/-! ## Components one by one -/

namespace Path

open Text

/-- The place of a component that is no name among the others; names come last. -/
def Component.rank : Component → Nat
  | .root => 0
  | .here => 1
  | .up => 2
  | .name _ => 3

/-- The order of components, that of names being the order of their bytes. -/
def Component.Precedes : Component → Component → Prop
  | .name a, .name b => bytes a < bytes b
  | c, d => c.rank < d.rank

theorem Component.Precedes.irrefl (c : Component) : ¬ c.Precedes c := by
  cases c with
  | name a => exact List.lt_irrefl (bytes a)
  | root => exact Nat.lt_irrefl 0
  | here => exact Nat.lt_irrefl 1
  | up => exact Nat.lt_irrefl 2

/-- One path comes before another when its components do: those at the first place where the two
differ decide, and what goes on comes after what ends there. -/
def Before (p q : List Char) : Prop :=
  List.Lex Component.Precedes (components p) (components q)

theorem Before.ne {p q : List Char} (h : Before p q) : p ≠ q := by
  rintro rfl
  exact List.lex_irrefl Component.Precedes.irrefl _ h

/-- Below one folder the first names at which two paths part decide. -/
theorem before_of_components {p q : List Char} {front back back' : List Component}
    {a b : List Char} (hp : components p = front ++ .name a :: back)
    (hq : components q = front ++ .name b :: back') (h : bytes a < bytes b) : Before p q := by
  rw [Before, hp, hq]
  clear hp hq
  induction front with
  | nil => exact .rel h
  | cons c front ih => exact .cons ih

/-! ## What is left below a folder -/

/-- The piece of a name. -/
def namePiece (name : List Char) : List Char × Option Component :=
  (name, some (.name name))

theorem dropComponents_append (front back : List (List Char × Option Component)) :
    ∃ idle, (∀ q ∈ idle, q.2 = none) ∧
      dropComponents (front.filterMap (·.2)) (front ++ back) = some (idle ++ back) := by
  induction front with
  | nil => exact ⟨[], by simp, by simp [dropComponents]⟩
  | cons q front ih =>
      obtain ⟨idle, hidle, hdrop⟩ := ih
      obtain ⟨text, component⟩ := q
      cases component with
      | some c =>
          refine ⟨idle, hidle, ?_⟩
          rw [List.filterMap_cons, List.cons_append, dropComponents, if_pos rfl, hdrop]
      | none =>
          cases hcomponents : front.filterMap (·.2) with
          | nil =>
              -- no component is left, so that all of the front stays
              refine ⟨(text, none) :: front, ?_, by simp [hcomponents, dropComponents]⟩
              intro q hq
              rcases List.mem_cons.mp hq with rfl | hq
              · rfl
              · exact List.filterMap_eq_nil_iff.mp hcomponents q hq
          | cons c cs =>
              rw [hcomponents] at hdrop
              refine ⟨idle, hidle, ?_⟩
              rw [List.filterMap_cons, hcomponents, List.cons_append, dropComponents, hdrop]

/-- What is left of a path below a folder is its last names, with slashes between them. -/
theorem below?_of_pieces {base path : List Char} {names : List (List Char)}
    {front : List (List Char × Option Component)} (hne : names ≠ [])
    (hpieces : pieces path = front ++ names.map namePiece)
    (hfront : front.filterMap (·.2) = components base) :
    below? base path = some (joinWith ['/'] names) := by
  obtain ⟨idle, hidle, hdrop⟩ := dropComponents_append front (names.map namePiece)
  rw [hfront] at hdrop
  have hstart : (idle ++ names.map namePiece).dropWhile (·.2.isNone) = names.map namePiece := by
    rw [List.dropWhile_append_of_pos (by simpa using hidle)]
    obtain ⟨n, ns, rfl⟩ := List.exists_cons_of_ne_nil hne
    simp [namePiece]
  have hend : dropIdleEnd (names.map namePiece) = names.map namePiece := by
    obtain ⟨ns, n, rfl⟩ := List.eq_nil_or_concat' names |>.resolve_left hne
    simp [dropIdleEnd, namePiece]
  have htext : unpieces (names.map namePiece) = joinWith ['/'] names := by
    unfold unpieces
    split
    · next heq =>
        obtain ⟨n, ns, rfl⟩ := List.exists_cons_of_ne_nil hne
        cases heq
    · simp [namePiece, Function.comp_def]
  rw [below?, hpieces, hdrop, Option.map_some, hstart, hend, htext]

end Path

end DocTransfer
