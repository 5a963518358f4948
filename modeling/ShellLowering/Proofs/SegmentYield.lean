import ShellLowering.Proofs.Outcome
import ShellLowering.Proofs.Yield

namespace ShellLowering

namespace Segments

def tokens (segments : Segments) : List Token :=
  segments.first ++
    segments.others.flatMap fun (connector, segment) => .operator (.connect connector) :: segment

def IsCut (segments : Segments) : Prop :=
  (∀ token ∈ segments.first, token.connector? = none) ∧
    ∀ other ∈ segments.others, ∀ token ∈ other.2, token.connector? = none

theorem ofTokens_cons_connector {token : Token} {connector : Connector}
    (h : token.connector? = some connector) (tokens : List Token) :
    ofTokens (token :: tokens) =
      ⟨[], (connector, (ofTokens tokens).first) :: (ofTokens tokens).others⟩ := by
  simp [ofTokens, h]

theorem ofTokens_cons_none {token : Token} (h : token.connector? = none) (tokens : List Token) :
    ofTokens (token :: tokens) = ⟨token :: (ofTokens tokens).first, (ofTokens tokens).others⟩ := by
  simp [ofTokens, h]

theorem isCut_ofTokens (tokens : List Token) : (ofTokens tokens).IsCut := by
  induction tokens with
  | nil => exact ⟨by simp [ofTokens], by simp [ofTokens]⟩
  | cons token tokens ih =>
      cases h : token.connector? with
      | some connector =>
          rw [ofTokens_cons_connector h]
          exact ⟨by simp, List.forall_mem_cons.mpr ih⟩
      | none =>
          rw [ofTokens_cons_none h]
          exact ⟨List.forall_mem_cons.mpr ⟨h, ih.1⟩, ih.2⟩

theorem normalized_tokens_ofTokens (tokens : List Token) :
    (ofTokens tokens).tokens.map Token.normalized = tokens.map Token.normalized := by
  induction tokens with
  | nil => rfl
  | cons token tokens ih =>
      rw [List.map_cons, ← ih]
      cases h : token.connector? with
      | some connector =>
          rw [ofTokens_cons_connector h,
            Token.normalized_of_operator? (Token.connector?_eq_some_iff.mp h)]
          rfl
      | none =>
          rw [ofTokens_cons_none h]
          rfl

theorem ofTokens_append {segment : List Token} (h : ∀ token ∈ segment, token.connector? = none)
    (tokens : List Token) :
    ofTokens (segment ++ tokens) =
      ⟨segment ++ (ofTokens tokens).first, (ofTokens tokens).others⟩ := by
  induction segment with
  | nil => rfl
  | cons token segment ih =>
      obtain ⟨htoken, hsegment⟩ := List.forall_mem_cons.mp h
      rw [List.cons_append, ofTokens_cons_none htoken, ih hsegment]
      rfl

theorem ofTokens_tokens {segments : Segments} (h : segments.IsCut) :
    ofTokens segments.tokens = segments := by
  obtain ⟨first, others⟩ := segments
  induction others generalizing first with
  | nil =>
      rw [tokens, ofTokens_append h.1]
      simp [ofTokens]
  | cons other others ih =>
      obtain ⟨connector, second⟩ := other
      obtain ⟨hsecond, hothers⟩ := List.forall_mem_cons.mp h.2
      have hrest := ih second ⟨hsecond, hothers⟩
      have hcut : (Token.operator (.connect connector)).connector? = some connector := rfl
      change ofTokens (first ++ .operator (.connect connector) :: tokens ⟨second, others⟩) = _
      rw [ofTokens_append h.1, ofTokens_cons_connector hcut, hrest, List.append_nil]

end Segments

namespace Item

/-- An item as it is read before numbers are taken for file descriptors. -/
def IsPlain (item : Item) : Prop :=
  item.IsCanonical ∧ ∀ redirection, item = .redirect redirection → redirection.fd = none

/-- A redirection with the number in front of it as a word of its own. -/
def detach : Item → List Item
  | .word token => [.word token]
  | .redirect redirection =>
    (redirection.fd.toList.map fun fd => .word (.number (.int fd))) ++
      [.redirect { redirection with fd := none }]

theorem isSeparate_redirect (redirection : Redirection) (item : Item) :
    (redirect redirection).IsSeparate item := by
  cases item <;> trivial

theorem isSeparate_of_fd? {token : Token} (h : token.fd? = none) (item : Item) :
    (word token).IsSeparate item := by
  cases item <;> simp [IsSeparate, h]

end Item

namespace Segment

theorem redirect?_of_isArgument {token : Token} (h : token.isArgument = true) :
    token.redirect? = none := by
  simp [Token.redirect?, Token.isArgument_iff.mp h]

theorem isArgument_of_redirect? {token : Token} (hconnector : token.connector? = none)
    (hredirect : token.redirect? = none) : token.isArgument = true := by
  rcases Token.argument_or_redirect hconnector with h | ⟨op, h⟩
  · exact h
  · simp [Token.redirect?_eq_some_iff.mpr h] at hredirect

theorem items_cons_argument {token : Token} (h : token.isArgument = true) (following : Found)
    (index : Nat) (tokens : List Token) :
    items following index (token :: tokens) =
      (items following (index + 1) tokens >>= fun rest => .ok (.word token :: rest)) := by
  simp [items, redirect?_of_isArgument h, pure_eq_ok]

theorem items_cons_redirect {token : Token} {op : RedirectOp}
    (h : token.operator? = some (.redirect op)) {target : Token}
    (htarget : target.isArgument = true) (following : Found) (index : Nat) (tokens : List Token) :
    items following index (token :: target :: tokens) =
      (items following (index + 2) tokens >>= fun rest =>
        .ok (.redirect ⟨some op.text, target, none⟩ :: rest)) := by
  simp [items, Token.redirect?_eq_some_iff.mpr h, Token.isArgument_iff.mp htarget, pure_eq_ok]

theorem items_redirect_nil {token : Token} {op : RedirectOp}
    (h : token.operator? = some (.redirect op)) (following : Found) (index : Nat) :
    items following index [token] = .error (.missingTarget op following) := by
  simp [items, Token.redirect?_eq_some_iff.mpr h]

theorem items_redirect_operator {token target : Token} {op : RedirectOp} {found : Operator}
    (h : token.operator? = some (.redirect op)) (htarget : target.operator? = some found)
    (following : Found) (index : Nat) (tokens : List Token) :
    items following index (token :: target :: tokens) =
      .error (.missingTarget op (.operator found (index + 1))) := by
  simp [items, Token.redirect?_eq_some_iff.mpr h, htarget]

theorem yield_of_items {following : Found} {index : Nat} {tokens : List Token} {read : List Item}
    (hcut : ∀ token ∈ tokens, token.connector? = none)
    (h : items following index tokens = .ok read) :
    (∀ item ∈ read, item.IsPlain) ∧ read.flatMap Item.tokens = tokens.map Token.normalized := by
  fun_induction items following index tokens generalizing read with
  | case1 =>
      injection h with h
      subst h
      simp
  | case2 index token tokens hredirect ih =>
      obtain ⟨htoken, htokens⟩ := List.forall_mem_cons.mp hcut
      have hargument := isArgument_of_redirect? htoken hredirect
      obtain ⟨rest, hrest, h⟩ := bind_eq_ok.mp h
      injection h with h
      subst h
      obtain ⟨hplain, hyield⟩ := ih htokens hrest
      refine ⟨List.forall_mem_cons.mpr ⟨⟨hargument, by simp⟩, hplain⟩, ?_⟩
      simp [Item.tokens, hyield, Token.normalized_of_isArgument hargument]
  | case3 => cases h
  | case4 => cases h
  | case5 index token op hredirect target tokens htarget ih =>
      have htokens := (List.forall_mem_cons.mp (List.forall_mem_cons.mp hcut).2).2
      have htarget := Token.isArgument_iff.mpr htarget
      obtain ⟨rest, hrest, h⟩ := bind_eq_ok.mp h
      injection h with h
      subst h
      obtain ⟨hplain, hyield⟩ := ih htokens hrest
      refine ⟨List.forall_mem_cons.mpr ⟨⟨⟨htarget, op, rfl⟩, by simp⟩, hplain⟩, ?_⟩
      simp [Item.tokens, hyield, Token.normalized_of_isArgument htarget,
        Token.normalized_of_operator? (Token.redirect?_eq_some_iff.mp hredirect)]

theorem fd?_eq_some {token : Token} {fd : Int} (h : token.fd? = some fd) :
    token = .number (.int fd) := by
  cases token with
  | number value =>
      cases value with
      | int value => simpa [Token.fd?, Number.fd?] using h
      | _ => simp [Token.fd?, Number.fd?] at h
  | _ => simp [Token.fd?] at h

/-- Taking numbers for file descriptors does not change how the items are written. -/
theorem tokens_attachFds {items : List Item} (h : ∀ item ∈ items, item.IsPlain) :
    (attachFds items).flatMap Item.tokens = items.flatMap Item.tokens := by
  fun_induction attachFds items with
  | case1 token redirection rest fd hfd ih =>
      obtain ⟨hredirection, hrest⟩ := List.forall_mem_cons.mp (List.forall_mem_cons.mp h).2
      obtain ⟨op, target, _⟩ := redirection
      have hnone := hredirection.2 _ rfl
      simp only at hnone
      subst hnone
      simp [Item.tokens, ih hrest, fd?_eq_some hfd]
  | case2 token redirection rest hfd ih =>
      obtain ⟨-, hrest⟩ := List.forall_mem_cons.mp (List.forall_mem_cons.mp h).2
      simp [ih hrest]
  | case3 item rest _ ih =>
      simp [ih (List.forall_mem_cons.mp h).2]
  | case4 => rfl

@[simp] theorem attachFds_redirect (redirection : Redirection) (items : List Item) :
    attachFds (.redirect redirection :: items) = .redirect redirection :: attachFds items := by
  rw [attachFds]
  simp

theorem attachFds_word {token : Token} {items : List Item}
    (h : ∀ redirection, items.head? = some (.redirect redirection) → token.fd? = none) :
    attachFds (.word token :: items) = .word token :: attachFds items := by
  rcases items with _ | ⟨_ | redirection, items⟩
  · rfl
  · rw [attachFds]
    simp
  · rw [attachFds, h redirection rfl, attachFds_redirect]

theorem head?_attachFds {items : List Item} {redirection : Redirection}
    (h : (attachFds items).head? = some (.redirect redirection)) :
    redirection.fd.isSome = true ∨ items.head? = some (.redirect redirection) := by
  fun_cases attachFds items with
  | case1 token other rest fd hfd =>
      rw [attachFds, hfd] at h
      simp only [List.head?_cons, Option.some.injEq, Item.redirect.injEq] at h
      exact .inl (h ▸ rfl)
  | case2 token other rest hfd =>
      rw [attachFds, hfd] at h
      simp at h
  | case3 item rest hpair =>
      rw [attachFds] at h
      · exact .inr h
      · exact hpair
  | case4 => simp [attachFds] at h

theorem isCanonical_attachFds {items : List Item} (h : ∀ item ∈ items, item.IsPlain) :
    (∀ item ∈ attachFds items, item.IsCanonical) ∧
      (attachFds items).IsChain Item.IsSeparate := by
  fun_induction attachFds items with
  | case1 token redirection rest fd hfd ih =>
      obtain ⟨hredirection, hrest⟩ := List.forall_mem_cons.mp (List.forall_mem_cons.mp h).2
      obtain ⟨hitems, hchain⟩ := ih hrest
      exact ⟨List.forall_mem_cons.mpr ⟨hredirection.1, hitems⟩,
        hchain.cons fun item _ => Item.isSeparate_redirect _ item⟩
  | case2 token redirection rest hfd ih =>
      obtain ⟨hword, h⟩ := List.forall_mem_cons.mp h
      obtain ⟨hredirection, hrest⟩ := List.forall_mem_cons.mp h
      obtain ⟨hitems, hchain⟩ := ih hrest
      refine ⟨List.forall_mem_cons.mpr ⟨hword.1, List.forall_mem_cons.mpr
        ⟨hredirection.1, hitems⟩⟩, ?_⟩
      exact (hchain.cons fun item _ => Item.isSeparate_redirect _ item).cons
        fun item _ => Item.isSeparate_of_fd? hfd item
  | case3 item rest hpair ih =>
      obtain ⟨hitem, hrest⟩ := List.forall_mem_cons.mp h
      obtain ⟨hitems, hchain⟩ := ih hrest
      refine ⟨List.forall_mem_cons.mpr ⟨hitem.1, hitems⟩, hchain.cons ?_⟩
      intro next hnext
      cases item with
      | redirect redirection => trivial
      | word token =>
          cases next with
          | word other => trivial
          | redirect redirection =>
              intro _
              rcases head?_attachFds hnext with hfd | hhead
              · exact hfd
              · obtain ⟨tail, rfl⟩ := List.head?_eq_some_iff.mp hhead
                exact (hpair token redirection tail rfl rfl).elim
  | case4 => exact ⟨by simp, .nil⟩

theorem items_tokens {items : List Item} (h : ∀ item ∈ items, item.IsCanonical)
    (following : Found) (index : Nat) :
    Segment.items following index (items.flatMap Item.tokens) =
      .ok (items.flatMap Item.detach) := by
  induction items generalizing index with
  | nil => rfl
  | cons item items ih =>
      obtain ⟨hitem, hitems⟩ := List.forall_mem_cons.mp h
      cases item with
      | word token =>
          simp only [List.flatMap_cons, Item.tokens, Item.detach, List.cons_append, List.nil_append]
          rw [items_cons_argument hitem, ih hitems]
          rfl
      | redirect redirection =>
          obtain ⟨op, target, fd⟩ := redirection
          obtain ⟨htarget, op, rfl⟩ := hitem
          have hop : (Token.operator (.redirect op)).operator? = some (.redirect op) := rfl
          cases fd with
          | none =>
              simp only [List.flatMap_cons, Item.tokens, Item.detach, Token.ofOperator_redirect,
                Option.toList_none, List.map_nil, List.cons_append, List.nil_append]
              rw [items_cons_redirect hop htarget, ih hitems]
              rfl
          | some fd =>
              simp only [List.flatMap_cons, Item.tokens, Item.detach, Token.ofOperator_redirect,
                Option.toList_some, List.map_cons, List.map_nil, List.cons_append, List.nil_append]
              rw [items_cons_argument (Token.isArgument_number _), items_cons_redirect hop htarget,
                ih hitems]
              rfl

theorem attachFds_detach {items : List Item} (h : items.IsChain Item.IsSeparate) :
    attachFds (items.flatMap Item.detach) = items := by
  induction items with
  | nil => rfl
  | cons item items ih =>
      have htail := ih h.tail
      rw [List.flatMap_cons]
      cases item with
      | redirect redirection =>
          obtain ⟨op, target, fd⟩ := redirection
          cases fd with
          | none => simp [Item.detach, htail]
          | some fd => simp [Item.detach, attachFds, Token.fd?, Number.fd?, htail]
      | word token =>
          rw [Item.detach, List.singleton_append, attachFds_word, htail]
          intro redirection hhead
          rcases items with _ | ⟨_ | ⟨op, target, fd⟩, items⟩
          · simp at hhead
          · simp [Item.detach] at hhead
          · cases fd with
            | none =>
                have hseparate := h.rel_head? (y := .redirect ⟨op, target, none⟩) rfl
                simpa [Item.IsSeparate] using hseparate
            | some fd => simp [Item.detach] at hhead

end Segment
end ShellLowering
