import Restyle.Proofs.Script.Tags
import Restyle.Proofs.Syntax.Tokens
/-!
How tags and attributes begin. A tag begins with its bracket, and nothing in front of its name holds
another tag. An attribute with a plain string consists of its name, the sign and the string; only
comments may stand between them.
-/

namespace Restyle.Script

open Syntax (Node Kind Role Cursor Lexeme Pattern Reads Passes Left Leaves insideOf outsideOf
  isExtra_of_isComment)

variable {d : Dialect}

/-- A tag begins with its bracket, and nothing in front of its name holds a tag. -/
def Led (n : Node) : Prop :=
  isTag n = true → ∀ k, n.childInRole? .name = some k →
    ∃ bracket before after, n.children = bracket :: before ++ k :: after ∧
      bracket.kind = .token "<" ∧ ∀ m ∈ bracket :: before, TagFree m

theorem rules_visible (d : Dialect) (r : Rule) : ((grammar d).rules r).visible = true := by
  obtain ⟨typed, markup⟩ := d
  cases typed <;> cases markup <;> cases r <;> decide +kernel

section

variable {c e f : Cursor}

theorem insideOf_append {ms os : List Node} {n : Node} (own : Cursor.isExtra n = false)
    (outside : ∀ m ∈ os, Cursor.isExtra m = true) :
    insideOf (ms ++ n :: os) = n :: ms.reverse := by
  rw [insideOf, List.reverse_append, List.reverse_cons, List.append_assoc,
    List.dropWhile_append_of_pos fun m member => outside m (List.mem_reverse.mp member)]
  exact List.dropWhile_cons_of_neg (by rw [own]; exact Bool.false_ne_true)

theorem token_left {l : Lexeme} (read : Reads (grammar d) (.token l) c e) :
    ∃ s cs, Left c e (.mk l.kind none s [] :: cs) ∧ ∀ m ∈ cs, m.isComment = true := by
  cases read with
  | token _ n trivia =>
      obtain ⟨cs, left, comments⟩ := trivia.leaves (V := fun m => m.isComment = true)
        fun _ category s => Syntax.isComment_commentAt category s
      exact ⟨_, cs, left.take l.kind n, comments⟩

theorem tagName_left (read : Reads (grammar d) tagName c e) :
    ∃ k os, Left c e (k :: os) ∧ k.role = some .name ∧ ∀ m ∈ k :: os, TagFree m := by
  cases read with
  | role r inner =>
      obtain ⟨ns, left, leaves⟩ := inner.frame (rules_framed d) rfl
      obtain ⟨n, ms, rfl⟩ := List.exists_cons_of_ne_nil (leaves rfl)
      have free := (tagFree_of_ordinary inner rfl rfl).of_left left
      obtain ⟨own, others⟩ := List.forall_mem_cons.mp free
      refine ⟨_, _, left.assign .name, ?_, List.forall_mem_cons.mpr ⟨own.withRole .name, others⟩⟩
      cases n
      rfl

/-- Where a tag has a child with the role of its name, or has no tag in it at all, the first such
child has no tag in front of it. -/
theorem led_of_parts {k : Kind} {s : Span} {bracket : Node} (before : List Node)
    {rest : List Node} (kind : bracket.kind = .token "<") (role : bracket.role = none)
    (free : ∀ m ∈ bracket :: before, TagFree m)
    (named : rest = [] ∨ ∃ name after, rest = name :: after ∧ name.role = some .name) :
    Led (.mk k none s (bracket :: before ++ rest)) := by
  intro _ name first
  unfold Node.childInRole? at first
  have other : (bracket.role == some Role.name) = false := by rw [role]; rfl
  change (bracket :: (before ++ rest)).find? _ = some name at first
  rw [List.find?_cons_of_neg (by rw [other]; exact Bool.false_ne_true), List.find?_append] at first
  cases found : before.find? fun c => c.role == some .name with
  | some n =>
      rw [found, Option.some_or, Option.some.injEq] at first
      subst first
      obtain ⟨-, ahead, behind, rfl, -⟩ := List.find?_eq_some_iff_append.mp found
      refine ⟨bracket, ahead, behind ++ rest, ?_, kind, fun m member => free m ?_⟩
      · simp [Node.children]
      · rcases List.mem_cons.mp member with rfl | later
        · exact List.mem_cons_self
        · exact List.mem_cons_of_mem _ (List.mem_append_left _ later)
  | none =>
      rw [found, Option.none_or] at first
      rcases named with rfl | ⟨n, after, rfl, named⟩
      · cases first
      · have own : (n :: after).find? (fun c => c.role == some .name) = some n :=
          List.find?_cons_of_pos (beq_iff_eq.mpr named)
        rw [own, Option.some.injEq] at first
        subst first
        exact ⟨bracket, before, after, rfl, kind, free⟩

theorem led_of_reads {l : Lexeme} {p q : Pattern Rule} {category : String} {s : Span}
    {ns : List Node} (kind : l.kind = .token "<")
    (opened : Reads (grammar d)
      (.bracketed true (.both (.token l) (.either (.both tagName p) .nothing))) c e)
    (framed' : p.framed (· == .markupExpression) = true)
    (closed : Reads (grammar d) q e f) (framed_q : q.framed (· == .markupExpression) = true)
    (plain : q.ordinary tagCategories (fun _ => false) = true) (left : Left c f ns) :
    Led (.mk (.category category) none s (insideOf ns)) := by
  have closing := tagFree_of_ordinary closed framed_q plain
  obtain ⟨zs, left_z, -⟩ := closed.frame (rules_framed d) framed_q
  have free_z := closing.of_left left_z
  cases opened with
  | bracketed _ inner =>
      cases inner with
      | both first second =>
          obtain ⟨s', cs, left_l, comments⟩ := token_left first
          have extra : ∀ m ∈ cs, Cursor.isExtra m = true :=
            fun m member => isExtra_of_isComment (comments m member)
          have own : Cursor.isExtra (.mk l.kind none s' []) = false := by
            rw [kind]
            rfl
          have free_l : TagFree (.mk l.kind none s' []) := by
            refine .leaf (isTag_eq_false ?_)
            rw [Node.kind, kind]
            rfl
          cases second with
          | left _ named =>
              cases named with
              | both name others =>
                  obtain ⟨k, os, left_k, role, free⟩ := tagName_left name
                  obtain ⟨ms, left_m, -⟩ := others.frame (rules_framed d) framed'
                  have all : Left c f (zs ++ (ms ++ (k :: os)) ++ .mk l.kind none s' [] :: cs) :=
                    (⟨left_l.stack, left_l.height⟩ : Left c _ _).trans
                      (((left_k.trans left_m)).trans ⟨left_z.stack, left_z.height⟩)
                  rw [left.unique all, insideOf_append own extra]
                  have parts : (zs ++ (ms ++ (k :: os))).reverse =
                      os.reverse ++ k :: (ms.reverse ++ zs.reverse) := by simp
                  rw [parts]
                  refine led_of_parts os.reverse kind rfl
                    (List.forall_mem_cons.mpr ⟨free_l, fun m later => ?_⟩) (.inr ⟨k, _, rfl, role⟩)
                  exact free m (List.mem_cons_of_mem _ (List.mem_reverse.mp later))
          | right _ none =>
              cases none
              have all : Left c f (zs ++ .mk l.kind none s' [] :: cs) :=
                (⟨left_l.stack, left_l.height⟩ : Left c _ _).trans
                  ⟨left_z.stack, left_z.height⟩
              rw [left.unique all, insideOf_append own extra, ← List.append_nil (_ :: _)]
              refine led_of_parts zs.reverse kind rfl
                (List.forall_mem_cons.mpr ⟨free_l, fun m later => ?_⟩) (.inl rfl)
              exact free_z m (List.mem_reverse.mp later)

theorem leaves_no_error {p : Pattern Rule} (read : Reads (grammar d) p c e)
    (framed' : p.framed (· == .markupExpression) = true)
    (plain : p.ordinary ["ERROR"] (fun _ => false) = true) :
    Leaves (fun n => n.isError = false) c e := by
  have sound : ∀ k s cs, ["ERROR"].contains (Kind.name k) = false →
      (Node.mk k none s cs).isError = false := by
    intro k s cs other
    cases k with
    | error => cases other
    | category | token | missing => rfl
  obtain ⟨ns, left, all⟩ := read.everywhere (S := fun n => n.isError = false) (rules_framed d)
    (fun _ _ _ => rfl) (fun _ known => absurd known Bool.false_ne_true) framed'
    (Pattern.closes_of_ordinary sound p plain)
  exact ⟨ns, left, fun n member => (all n member).here⟩

theorem attributeName_left (read : Reads (grammar d) attributeName c e) :
    ∃ n os, Left c e (n :: os) ∧ Cursor.isExtra n = false ∧ n.isNamed = true ∧
      ∀ m ∈ os, Cursor.isExtra m = true := by
  cases read with
  | left _ one =>
      cases one with
      | node name inner =>
          obtain ⟨ns, left, -⟩ := inner.frame (rules_framed d) rfl
          obtain ⟨s, closed⟩ := left.close "jsx_namespace_name"
          exact ⟨_, _, closed, rfl, rfl,
            fun m member => (Syntax.mem_of_mem_outsideOf member).2⟩
  | right _ other =>
      obtain ⟨s, cs, left, comments⟩ := token_left other
      exact ⟨_, cs, left, rfl, rfl, fun m member => isExtra_of_isComment (comments m member)⟩

theorem attributeString_left (read : Reads (grammar d) attributeString c e) :
    ∃ n os, Left c e (n :: os) ∧ n.is "string" = true ∧ ∀ m ∈ os, m.isComment = true := by
  have faultless := leaves_no_error read rfl rfl
  have closed : ∀ {p : Pattern Rule}, p.framed (· == .markupExpression) = true →
      Reads (grammar d) (.node "string" p) c e →
      ∃ n os, Left c e (n :: os) ∧ n.is "string" = true ∧ ∀ m ∈ os, m.isComment = true := by
    intro p framed' inner
    cases inner with
    | node name inner =>
        obtain ⟨ns, left, -⟩ := inner.frame (rules_framed d) framed'
        obtain ⟨s, closed⟩ := left.close "string"
        refine ⟨_, _, closed, rfl, fun m member => ?_⟩
        have sound := faultless.of_left closed m (List.mem_cons_of_mem _ member)
        have extra := (Syntax.mem_of_mem_outsideOf member).2
        rwa [Cursor.isExtra, sound, Bool.or_false] at extra
  cases read with
  | left _ one => exact closed rfl one
  | right _ other => exact closed rfl other

/-- An attribute with a plain string consists of its name, the sign and the string. -/
def Valued (n : Node) : Prop :=
  n.is "jsx_attribute" = true → (∃ c ∈ n.children, c.is "string" = true) →
    ∃ name sign value before after,
      n.children = name :: (before ++ sign :: (after ++ [value])) ∧
      (name.isNamed = true ∧ name.isComment = false) ∧ sign.kind = .token "=" ∧
      value.is "string" = true ∧ ∀ m ∈ before ++ after, m.isComment = true

theorem valued_of_reads {l : Lexeme} {p q : Pattern Rule} {ns : List Node} (s : Span)
    (kind : l.kind = .token "=")
    (read : Reads (grammar d) (.both attributeName
      (.either (.both (.token l) (.either attributeString (.either p q))) .nothing)) c e)
    (left : Left c e ns)
    (framed' : (Pattern.both attributeName
      (.either (.both (.token l) (.either p q)) .nothing)).framed (· == .markupExpression) = true)
    (tops : (Pattern.both attributeName (.either (.both (.token l) (.either p q)) .nothing)).tops
      (differs "string") inMarkup = true) :
    Valued (.mk (.category "jsx_attribute") none s (insideOf ns)) := by
  rintro - ⟨m, member, string⟩
  rcases attribute_leaves read with plain | other
  · cases plain with
    | both first second =>
        cases second with
        | both sign value =>
            obtain ⟨n, os, left_n, own, named, extra⟩ := attributeName_left first
            obtain ⟨s', cs, left_l, comments⟩ := token_left sign
            obtain ⟨v, os', left_v, is, between⟩ := attributeString_left value
            have all := left_n.trans (left_l.trans left_v)
            rw [left.unique all, insideOf_append own extra]
            rw [Cursor.isExtra, Bool.or_eq_false_iff] at own
            refine ⟨n, .mk l.kind none s' [], v, cs.reverse, os'.reverse, ?_, ⟨named, own.1⟩,
              kind, is, ?_⟩
            · simp [Node.children]
            · intro m member
              rcases List.mem_append.mp member with ahead | behind
              · exact comments m (List.mem_reverse.mp ahead)
              · exact between m (List.mem_reverse.mp behind)
  · have none := (other.tops (differs "string") inMarkup (rules_framed d)
      (differs_of_extra (by decide)) (fun r known c e => leaves_no_string known)
      framed' tops).of_left left m (Syntax.mem_of_mem_insideOf member)
    rw [differs_eq_true_iff, string] at none
    cases none

end

/-- How a node begins, should it be a tag or an attribute. -/
structure Begun (n : Node) : Prop where
  led : Led n
  valued : Valued n

def beginningCategories : List String := "jsx_attribute" :: tagCategories

theorem begun_plain (k : Kind) (r : Option Role) (s : Span) (cs : List Node)
    (h : beginningCategories.contains k.name = false) : Begun (.mk k r s cs) := by
  rw [beginningCategories, List.contains_cons, Bool.or_eq_false_iff, beq_eq_false_iff_ne] at h
  refine ⟨fun tag => ?_, fun is => ?_⟩
  · rw [isTag_eq_false (n := .mk k r s cs) h.2] at tag
    cases tag
  · rw [is_eq_false (n := .mk k r s cs) h.1] at is
    cases is

theorem Begun.withRole {n : Node} (h : Begun n) (r : Role) : Begun (n.withRole r) := by
  cases n
  exact ⟨h.led, h.valued⟩

theorem begun_ordinary {p : Pattern Rule}
    (plain : p.ordinary beginningCategories (fun _ => true) = true) :
    p.Closes (grammar d) Begun fun _ => true :=
  Pattern.closes_of_ordinary (fun k s cs => begun_plain k none s cs) p plain

theorem begun_role {r : Role} {p : Pattern Rule}
    (inner : p.Closes (grammar d) Begun fun _ => true) :
    (Pattern.role r p).Closes (grammar d) Begun fun _ => true :=
  ⟨inner, fun _ _ _ _ _ _ begun => begun.withRole r⟩

theorem tagName_begun : tagName.Closes (grammar d) Begun fun _ => true :=
  begun_role (begun_ordinary rfl)

theorem tagAttribute_begun : tagAttribute.Closes (grammar d) Begun fun _ => true := by
  refine begun_role ⟨⟨begun_ordinary rfl, fun c e ns s read left => ?_⟩, rfl⟩
  exact ⟨nofun, valued_of_reads s rfl read left rfl rfl⟩

theorem element_begun (d : Dialect) : (elementRule d).Closes (grammar d) Begun fun _ => true := by
  obtain ⟨typed, markup⟩ := d
  unfold elementRule
  dsimp only
  refine ⟨⟨⟨⟨begun_ordinary rfl, ⟨tagName_begun, ?_, tagAttribute_begun⟩, trivial⟩,
    ⟨begun_ordinary rfl, ?_, begun_ordinary rfl, ?_, trivial⟩⟩, ⟨trivial, begun_ordinary rfl, ?_⟩,
    fun c d e ns s _ _ _ => begun_plain _ _ _ _ rfl, trivial⟩, trivial⟩
  · cases typed <;> exact begun_ordinary rfl
  · -- A tag that closes itself.
    intro c e f ns s opened closed left
    exact ⟨led_of_reads rfl opened (by cases typed <;> rfl) closed rfl rfl left, nofun⟩
  · -- A tag that something follows.
    intro c e f ns s opened closed left
    exact ⟨led_of_reads rfl opened (by cases typed <;> rfl) closed rfl rfl left, nofun⟩
  · -- What closes an element.
    refine begun_role ⟨⟨begun_ordinary rfl, ⟨tagName_begun, trivial⟩, begun_ordinary rfl⟩, ?_⟩
    exact fun c d ns s _ _ => begun_plain _ _ _ _ rfl

theorem rules_other (d : Dialect) {r : Rule} (other : r ≠ .element) :
    (rules d r).ordinary beginningCategories (fun _ => true) = true := by
  obtain ⟨typed, markup⟩ := d
  cases typed <;> cases markup <;> cases r <;> first | rfl | exact absurd rfl other

theorem rules_begun (d : Dialect) (r : Rule) :
    (rules d r).Closes (grammar d) Begun fun _ => true := by
  by_cases element : r = .element
  · rw [element]
    exact element_begun d
  · exact begun_ordinary (rules_other d element)

/-- All tags and attributes of a script without faults begin in this way. -/
theorem begun_of_derived {source : List Char} {tree : Node} (h : tree.Derived (grammar d) source) :
    ∀ n ∈ tree.children, n.Everywhere Begun :=
  h.everywhere (rules_framed d)
    (Syntax.forall_commentAt (fun s => begun_plain _ none s [] rfl)
      fun s => begun_plain _ none s [] rfl)
    (fun r _ => rules_begun d r) rfl

end Restyle.Script
