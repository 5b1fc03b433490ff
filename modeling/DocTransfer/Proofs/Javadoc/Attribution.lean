import DocTransfer.Proofs.Javadoc.Declared

/-! # No comment documents two things

The body of an enum is searched three times, for members, for constants and for types, and so are
the declarations in it. As the kinds of nodes tell these apart, everything in a forest is declared at
a place of its own, and no comment is used twice. -/

namespace DocTransfer.Javadoc

open Source SourceTree

/-! ## Members and constants -/

variable {source : List Char} {root : JavaTree} {o : Origin}

theorem placed_membersIn (p : Place) :
    Placed o.source root ((membersIn o (root.rowAt p)).map .member)
      (Inside root p fun k => k.isMember = true) := by
  apply placed_filterMap
  intro j t m ht h
  simp only [member] at h
  split at h
  · next hkept =>
      simp only [Bool.and_eq_true] at hkept
      cases h
      refine ⟨hkept.1.1, t, by rw [at?_cons, ht], ⟨hkept.1.1, rfl⟩, ?_⟩
      rw [Entry.javadoc, docOf_previousAt]
  · cases h

theorem placed_constantsIn (p : Place) :
    Placed o.source root ((constantsIn o (root.rowAt p)).map .constant)
      (Inside root p (· = .enumConstant)) := by
  apply placed_filterMap
  intro j t c ht h
  simp only [enumConstant] at h
  split at h
  · next hkept =>
      simp only [Bool.and_eq_true, beq_iff_eq] at hkept
      cases h
      refine ⟨hkept.1, t, by rw [at?_cons, ht], hkept.1, ?_⟩
      rw [Entry.javadoc, docOf_previousAt]
  · cases h

/-! ## Types -/

/-- The kinds of nodes that declare a type. -/
def IsType (k : Kind) : Prop :=
  ∃ kind, k = .typeDeclaration kind

/-- What stands at an index of a row is the row at a place, also if there is nothing. -/
theorem exists_rowAt_childrenAt (root : JavaTree) (p : Place) (place : Option Nat) :
    ∃ i, childrenAt place (root.rowAt p) = root.rowAt (i :: p) ∧
      ∀ t, (root.rowAt p)[i]? = some t → place = some i := by
  cases place with
  | none =>
      refine ⟨(root.rowAt p).length, ?_, by simp⟩
      rw [childrenAt_none, rowAt_of_at?_none]
      simp [at?_cons]
  | some i =>
      refine ⟨i, ?_, fun _ _ => rfl⟩
      simp [childrenAt, rowAt, at?_cons]

theorem kind_of_declarationsPlace? {ts : List JavaTree} {i : Nat} {t : JavaTree}
    (h : declarationsPlace? ts = some i) (ht : ts[i]? = some t) : t.kind = .enumDeclarations := by
  obtain ⟨hlt, hkind, -⟩ := List.findIdx?_eq_some_iff_getElem.mp h
  rw [List.getElem?_eq_getElem hlt] at ht
  cases ht
  simpa using hkind

/-- The rows inside a type: its body, and in the body the declarations of an enum. -/
theorem exists_rows {q : Place} {t : JavaTree} (h : root.at? q = some t) :
    ∃ b l, bodyOf t = root.rowAt (b :: q) ∧ laterOf t = root.rowAt (l :: b :: q) ∧
      ∀ u, (root.rowAt (b :: q))[l]? = some u → u.kind = .enumDeclarations := by
  obtain ⟨b, hbody, -⟩ := exists_rowAt_childrenAt root q (bodyPlace? t.children)
  rw [rowAt_of_at? h] at hbody
  obtain ⟨l, hlater, hplace⟩ := exists_rowAt_childrenAt root (b :: q) (declarationsPlace? (bodyOf t))
  rw [← hbody] at hlater hplace
  refine ⟨b, l, hbody, hlater, ?_⟩
  intro u hu
  rw [← hbody] at hu
  exact kind_of_declarationsPlace? (hplace u hu) hu

theorem ne_of_inside {b : Nat} {q x : Place} {kinds : Kind → Prop}
    (h : Inside root (b :: q) kinds x) : x ≠ q := by
  rintro rfl
  obtain ⟨i, t, -, -, hsuffix⟩ := h
  have hlength := hsuffix.length_le
  simp only [List.length_cons] at hlength
  omega

theorem suffix_of_inside {b : Nat} {q x : Place} {kinds : Kind → Prop}
    (h : Inside root (b :: q) kinds x) : q <:+ x := by
  obtain ⟨i, t, -, -, hsuffix⟩ := h
  exact ((List.suffix_cons b q).trans (List.suffix_cons i (b :: q))).trans hsuffix

/-- A member is no type, no constant and no list of declarations. -/
theorem isMember_apart {k : Kind} (h : k.isMember = true) :
    ¬ IsType k ∧ k ≠ .enumConstant ∧ k ≠ .enumDeclarations := by
  refine ⟨?_, ?_, ?_⟩
  · rintro ⟨kind, rfl⟩
    cases h
  · rintro rfl
    cases h
  · rintro rfl
    cases h

theorem isType_apart {k : Kind} (h : IsType k) : k ≠ .enumConstant ∧ k ≠ .enumDeclarations := by
  obtain ⟨kind, rfl⟩ := h
  exact ⟨by simp, by simp⟩

/-- A type, all it holds and all inside it have places of their own, at and below the place of the
type, if this is so for the types of the two rows inside it. -/
theorem placed_declaredType {q : Place} {previous : Option JavaTree} {t : JavaTree}
    {outer : Option String} {kind : TypeKind} {nameNode : JavaTree} (ht : root.at? q = some t)
    (hkind : t.kind = .typeDeclaration kind) (hname : nameNode? t = some nameNode)
    (hdoc : docOf o.source previous = docAt o.source root q)
    (hbody : ∀ p outer, root.rowAt p = bodyOf t →
      Placed o.source root (entries (typesIn o outer none (bodyOf t))) (Inside root p IsType))
    (hlater : ∀ p outer, root.rowAt p = laterOf t →
      Placed o.source root (entries (typesIn o outer none (laterOf t))) (Inside root p IsType)) :
    Placed o.source root (entries [declaredType o outer previous t kind nameNode]) (q <:+ ·) := by
  obtain ⟨b, l, hrow, hrow', hdeclarations⟩ := exists_rows ht
  -- seen from the body, the row of declarations is inside one node of the row
  have hdeep {kinds : Kind → Prop} {x : Place} (h : Inside root (l :: b :: q) kinds x) :
      Inside root (b :: q) (· = .enumDeclarations) x := h.outward hdeclarations
  have htype : DeclaredAt o.source root
      (.type (declaredType o outer previous t kind nameNode)) q := by
    refine ⟨t, ht, ⟨hkind, nameNode, hname, rfl⟩, ?_⟩
    rw [Entry.javadoc, ← hdoc]
    rfl
  have hmembers : Placed o.source root
      ((membersIn o (bodyOf t) ++ membersIn o (laterOf t)).map .member) fun x =>
        Inside root (b :: q) (fun k => k.isMember = true) x ∨
          Inside root (l :: b :: q) (fun k => k.isMember = true) x := by
    rw [List.map_append, hrow, hrow']
    refine (placed_membersIn _).append (placed_membersIn _) ?_
    intro x hx hx'
    exact hx.apart (fun k hk => (isMember_apart hk).2.2) (hdeep hx')
  have hconstants : Placed o.source root
      (((if kind = .enum then some (constantsIn o (bodyOf t)) else none).getD []).map .constant)
      (Inside root (b :: q) (· = .enumConstant)) := by
    split
    · rw [hrow]
      exact placed_constantsIn _
    · exact .nil
  have hnested (full : String) : Placed o.source root
      (entries (typesIn o (some full) none (bodyOf t)) ++
        entries (typesIn o (some full) none (laterOf t))) fun x =>
        Inside root (b :: q) IsType x ∨ Inside root (l :: b :: q) IsType x := by
    refine (hbody _ _ hrow.symm).append (hlater _ _ hrow'.symm) ?_
    intro x hx hx'
    exact hx.apart (fun k hk => (isType_apart hk).2) (hdeep hx')
  have hheld := hmembers.append hconstants (by
    rintro x (hx | hx) hx'
    · exact hx.apart (fun k hk => (isMember_apart hk).2.1) hx'
    · exact (hdeep hx).apart (by rintro k rfl; simp) hx')
  have hown := (Placed.single htype).append hheld (by
    rintro x rfl ((hx | hx) | hx)
    · exact ne_of_inside hx rfl
    · exact ne_of_inside (hdeep hx) rfl
    · exact ne_of_inside hx rfl)
  rw [entries_singleton, declaredType, JavaType.nested, entries_append]
  refine (hown.append (hnested _) ?_).mono ?_
  · rintro x (rfl | (hx | hx) | hx) (hx' | hx')
    · exact ne_of_inside hx' rfl
    · exact ne_of_inside (hdeep hx') rfl
    · exact hx.apart (fun k hk => (isMember_apart hk).1) hx'
    · exact hx.apart (fun k hk => (isMember_apart hk).2.2) (hdeep hx')
    · exact hx'.apart (fun k hk => (isType_apart hk).2) (hdeep hx)
    · exact hx.apart (fun k hk => (isMember_apart hk).1) hx'
    · exact hx'.apart (fun k hk => (isType_apart hk).1) hx
    · exact hx.apart (by rintro k rfl; simp) (hdeep hx')
  · rintro x ((rfl | (hx | hx) | hx) | hx | hx)
    · exact List.suffix_refl _
    · exact suffix_of_inside hx
    · exact suffix_of_inside (hdeep hx)
    · exact suffix_of_inside hx
    · exact suffix_of_inside hx
    · exact suffix_of_inside (hdeep hx)

theorem entries_typesIn (o : Origin) (outer : Option String) (previous : Option JavaTree)
    (ts : List JavaTree) :
    entries (typesIn o outer previous ts) =
      (withPrevious previous ts).flatMap fun (previous, t) =>
        entries (typeOf? o outer previous t).toList := by
  induction ts generalizing previous with
  | nil => rfl
  | cons t ts ih => rw [typesIn_cons, withPrevious, List.flatMap_cons, entries_append, ih]

/-- All that the types of a row hold has places of its own, at and below the nodes of the row that
declare a type. -/
theorem placed_typesIn (ts : List JavaTree) : ∀ p outer, root.rowAt p = ts →
    Placed o.source root (entries (typesIn o outer none ts)) (Inside root p IsType) := by
  induction ts using rowInduction with
  | row ts ih =>
      rintro p outer rfl
      rw [entries_typesIn]
      refine placed_row (fun previous t => entries (typeOf? o outer previous t).toList) ?_
      intro j t ht
      cases htype : typeOf? o outer (previousAt (root.rowAt p) j) t with
      | none => simpa using Placed.nil
      | some type =>
          obtain ⟨kind, nameNode, hkind, hname, rfl⟩ := (typeOf?_eq_some_iff o).mp htype
          have hrows := ih t (List.mem_of_getElem? ht)
          refine (placed_declaredType (by rw [at?_cons, ht]) hkind hname
            (docOf_previousAt o.source root p j) hrows.1 hrows.2).mono ?_
          intro x hx
          exact ⟨⟨kind, hkind⟩, hx⟩

/-! ## Comments -/

theorem nodup_comments {es : List Entry} {places : List Place}
    (hdeclared : List.Forall₂ (DeclaredAt source root) es places) (hnodup : places.Nodup) :
    (places.filterMap (commentOf? source root)).Nodup := by
  have hnamed : ∀ q ∈ places, ∃ t, root.at? q = some t ∧ t.kind.isNamed = true := by
    induction hdeclared with
    | nil => simp
    | cons h _ ih =>
        obtain ⟨t, ht, hdeclares, -⟩ := h
        have hmore := ih (List.nodup_cons.mp hnodup).2
        exact List.forall_mem_cons.mpr ⟨⟨t, ht, hdeclares.isNamed⟩, hmore⟩
  refine List.pairwise_filterMap.mpr (hnodup.imp_of_mem ?_)
  rintro q q' hq hq' hne c hc c' hc' rfl
  obtain ⟨t, ht, hn⟩ := hnamed q hq
  obtain ⟨t', ht', hn'⟩ := hnamed q' hq'
  exact hne (commentOf?_injective hc hc' ht ht' hn hn')

/-- Documentation that is not empty comes from a comment. -/
theorem countP_javadoc_le {es : List Entry} {places : List Place}
    (hdeclared : List.Forall₂ (DeclaredAt source root) es places) :
    es.countP (·.javadoc ≠ "") ≤ (places.filterMap (commentOf? source root)).length := by
  induction hdeclared with
  | nil => simp
  | @cons e q es places h _ ih =>
      obtain ⟨t, -, -, hdoc⟩ := h
      cases hcomment : commentOf? source root q with
      | none =>
          have hempty : e.javadoc = "" := by
            rw [hdoc, docAt, hcomment]
            rfl
          rw [List.countP_cons_of_neg (by simp [hempty]), List.filterMap_cons_none hcomment]
          exact ih
      | some c =>
          rw [List.filterMap_cons_some hcomment, List.length_cons, List.countP_cons]
          split <;> omega

/-- Everything in the forest of a tree is declared at a place of its own and documented by the
comment right before that place. No comment is right before two of these places, so no comment is
used twice, and there is no more documentation in the forest than there are comments for it. -/
theorem javadocs_attributed_once (source : List Char) (path : String) (root : JavaTree) :
    (∃ places, List.Forall₂ (DeclaredAt source root) (entries (typesOf source path root)) places ∧
      places.Nodup ∧ (places.filterMap (commentOf? source root)).Nodup) ∧
    (entries (typesOf source path root)).countP (·.javadoc ≠ "") ≤
      root.preorder.countP (isDocComment source) := by
  obtain ⟨places, hdeclared, hnodup, -⟩ :=
    placed_typesIn (o := ⟨source, path, packageOf source root⟩) root.children [] none
      (rowAt_of_at? rfl)
  have hcomments := nodup_comments hdeclared hnodup
  refine ⟨⟨places, hdeclared, hnodup, hcomments⟩, ?_⟩
  refine Nat.le_trans (countP_javadoc_le hdeclared) (length_le_countP hcomments ?_)
  intro c hc
  obtain ⟨q, -, hq⟩ := List.mem_filterMap.mp hc
  exact commentOf?_eq_some hq

end DocTransfer.Javadoc
