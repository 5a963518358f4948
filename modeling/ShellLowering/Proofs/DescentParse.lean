import ShellLowering.Proofs.Descent
import ShellLowering.Proofs.ParseYield

namespace ShellLowering

namespace GrammarError

def fault (e : GrammarError) : Fault :=
  .grammar e.cause e.position

def lift {α : Type} (result : Except GrammarError α) : Except Fault α :=
  result.mapError fault

@[simp] theorem lift_ok {α : Type} (a : α) : lift (.ok a) = .ok a := rfl

@[simp] theorem lift_bind {α β : Type} (result : Except GrammarError α)
    (f : α → Except GrammarError β) :
    lift (result >>= f) = (lift result >>= fun a => lift (f a)) := by
  cases result <;> rfl

end GrammarError

namespace Token

theorem fd?_of_operator? {token : Token} {op : Operator} (h : token.operator? = some op) :
    token.fd? = none := by
  cases token <;> simp [operator?] at h <;> rfl

theorem named_of_operator? {token : Token} {op : Operator} (h : token.operator? = some op) :
    token.named = .ok op.text := by
  rw [named, text?_of_operator? h]

theorem category_of_isArgument {token : Token} (h : token.isArgument = true) :
    token.category = .argument :=
  of_decide_eq_true h

theorem category_ne_argument {token : Token} {op : Operator} (h : token.operator? = some op) :
    token.category ≠ .argument :=
  of_decide_eq_false (isArgument_eq_false h)

theorem category_of_redirect {token : Token} {op : RedirectOp}
    (h : token.operator? = some (.redirect op)) : token.category = .redirect := by
  simp [category, h]

theorem category_ne_redirect {token : Token} {connector : Connector}
    (h : token.operator? = some (.connect connector)) : token.category ≠ .redirect := by
  rcases connector with _ | _ | _ <;> simp [category, h]

end Token

@[simp] theorem Cursor.category?_cons (index : Nat) (token : Token) (rest : List Token) :
    (Cursor.mk index (token :: rest)).category? = some token.category := rfl

theorem Cursor.describe_of_operator? {token : Token} {op : Operator}
    (h : token.operator? = some op) (index : Nat) (rest : List Token) :
    (Cursor.mk index (token :: rest)).describe = .ok (Text.quoted op.text) := by
  simp [describe, Token.named_of_operator? h, pure_eq_ok]

namespace Segments

theorem add_length_cons (index : Nat) (token : Token) (words : List Token) :
    index + (token :: words).length = index + 1 + words.length := by
  rw [List.length_cons]
  omega

/-- What stands behind a segment that ends at an index, given the segments after it. -/
def following (index : Nat) : List (Connector × List Token) → Found
  | [] => .endOfInput
  | (connector, _) :: _ => .operator (.connect connector) index

/-- Tokens that are cut into segments, each behind its connector. -/
inductive Behind : List Token → List (Connector × List Token) → Prop
  | nil : Behind [] []
  | cons {token : Token} {connector : Connector} {second rest : List Token}
      {others : List (Connector × List Token)}
      (hconnector : token.operator? = some (.connect connector))
      (hcut : ∀ token ∈ second, token.connector? = none) (hrest : Behind rest others) :
      Behind (token :: (second ++ rest)) ((connector, second) :: others)

theorem exists_behind (tokens : List Token) :
    ∃ rest, tokens = (ofTokens tokens).first ++ rest ∧ Behind rest (ofTokens tokens).others := by
  induction tokens with
  | nil => exact ⟨[], rfl, .nil⟩
  | cons token tokens ih =>
      obtain ⟨rest, htokens, hrest⟩ := ih
      cases h : token.connector? with
      | some connector =>
          have hbehind : Behind (token :: ((ofTokens tokens).first ++ rest)) _ :=
            .cons (Token.connector?_eq_some_iff.mp h) (isCut_ofTokens tokens).1 hrest
          rw [← htokens] at hbehind
          rw [ofTokens_cons_connector h]
          exact ⟨token :: tokens, rfl, hbehind⟩
      | none =>
          rw [ofTokens_cons_none h]
          exact ⟨rest, congrArg (token :: ·) htokens, hrest⟩

variable {rest : List Token} {others : List (Connector × List Token)}

theorem Behind.describe (h : Behind rest others) (index : Nat) :
    (Cursor.mk index rest).describe = .ok (following index others).describe := by
  cases h with
  | nil => rfl
  | cons hconnector hcut hrest => exact Cursor.describe_of_operator? hconnector index _

theorem Behind.position (h : Behind rest others) (index : Nat) :
    (Cursor.mk index rest).position = (following index others).index? := by
  cases h <;> rfl

theorem Behind.category_ne_argument (h : Behind rest others) (index : Nat) :
    (Cursor.mk index rest).category? ≠ some .argument := by
  cases h with
  | nil => simp [Cursor.category?]
  | cons hconnector hcut hrest => simpa using Token.category_ne_argument hconnector

theorem Behind.category_ne_redirect (h : Behind rest others) (index : Nat) :
    (Cursor.mk index rest).category? ≠ some .redirect := by
  cases h with
  | nil => simp [Cursor.category?]
  | cons hconnector hcut hrest => simpa using Token.category_ne_redirect hconnector

theorem Behind.startsRedirection (h : Behind rest others) (hne : rest.isEmpty = false)
    (index : Nat) : Descent.startsRedirection ⟨index, rest⟩ = .ok false := by
  cases h with
  | nil => cases hne
  | cons hconnector hcut hrest =>
      have hcategory := (Behind.cons hconnector hcut hrest).category_ne_redirect index
      rw [Descent.startsRedirection, if_neg hcategory]
      simp [Cursor.token, Token.fd?_of_operator? hconnector]

end Segments

namespace Descent

open GrammarError (lift)

variable {rest : List Token} {others : List (Connector × List Token)}

def ReadsItems (rest : List Token) (others : List (Connector × List Token))
    (segment : List Token) : Prop :=
  ∀ index, items ⟨index, segment ++ rest⟩ =
    (lift (Segment.items (Segments.following (index + segment.length) others) index segment) >>=
      fun read => .ok (Segment.attachFds read, ⟨index + segment.length, rest⟩))

theorem redirectionTo_argument {target : Token} (h : target.isArgument = true) (op : String)
    (fd : Option Int) (index : Nat) (tokens : List Token) :
    redirectionTo op fd ⟨index, target :: tokens⟩ =
      .ok (⟨some op, target, fd⟩, ⟨index + 1, tokens⟩) := by
  rw [redirectionTo, Cursor.category?_cons, Token.category_of_isArgument h, if_pos rfl]
  rfl

theorem redirectionTo_found {cursor : Cursor} {found : Found}
    (hcategory : cursor.category? ≠ some .argument)
    (hdescribe : cursor.describe = .ok found.describe)
    (hposition : cursor.position = found.index?) (op : RedirectOp) (fd : Option Int) :
    redirectionTo op.text fd cursor = .error (GrammarError.missingTarget op found).fault := by
  rw [redirectionTo, if_neg hcategory, hdescribe, hposition]
  rfl

theorem redirectionTo_append (hrest : Segments.Behind rest others) {token : Token}
    {op : RedirectOp} (htoken : token.operator? = some (.redirect op)) {words : List Token}
    (hwords : ∀ target tail, words = target :: tail → ReadsItems rest others tail)
    (fd : Option Int) (index : Nat) :
    (redirectionTo op.text fd ⟨index + 1, words ++ rest⟩ >>= fun (read, next) =>
      items next >>= fun (others, last) => .ok (.redirect read :: others, last)) =
    (lift (Segment.items (Segments.following (index + 1 + words.length) others) index
        (token :: words)) >>= fun read =>
      .ok (Segment.attachFds ((fd.toList.map fun fd => .word (.number (.int fd))) ++ read),
        ⟨index + 1 + words.length, rest⟩)) := by
  cases words with
  | nil =>
      rw [Segment.items_redirect_nil htoken]
      exact congrArg (· >>= _) (redirectionTo_found (hrest.category_ne_argument _)
        (hrest.describe _) (hrest.position _) op fd)
  | cons target words =>
      cases htarget : target.operator? with
      | some found =>
          have hcategory : (Cursor.mk (index + 1) (target :: (words ++ rest))).category? ≠
              some .argument := by
            simpa using Token.category_ne_argument htarget
          have hfound : redirectionTo op.text fd ⟨index + 1, target :: (words ++ rest)⟩ =
              .error (GrammarError.missingTarget op (.operator found (index + 1))).fault :=
            redirectionTo_found hcategory (Cursor.describe_of_operator? htarget _ _) rfl op fd
          rw [Segment.items_redirect_operator htoken htarget, List.cons_append, hfound]
          rfl
      | none =>
          have hargument := Token.isArgument_iff.mpr htarget
          have hread := hwords target words rfl (index + 2)
          rw [Segment.items_cons_redirect htoken hargument, List.cons_append,
            redirectionTo_argument hargument, ok_bind, Segments.add_length_cons]
          change (items ⟨index + 2, words ++ rest⟩ >>= _) = _
          rw [hread]
          simp only [GrammarError.lift_bind, bind_assoc, ok_bind, GrammarError.lift_ok]
          cases fd with
          | none => simp
          | some fd => simp [Segment.attachFds, Token.fd?, Number.fd?]

theorem exists_redirect_of_items {following : Found} {index : Nat} {tokens : List Token}
    {read : List Item} {redirection : Redirection}
    (hcut : ∀ token ∈ tokens, token.connector? = none)
    (h : Segment.items following index tokens = .ok read)
    (hhead : read.head? = some (.redirect redirection)) :
    ∃ token op rest, tokens = token :: rest ∧ token.operator? = some (.redirect op) := by
  cases tokens with
  | nil =>
      injection h with h
      subst h
      cases hhead
  | cons token tokens =>
      rcases Token.argument_or_redirect (hcut token List.mem_cons_self) with hargument | ⟨op, hop⟩
      · rw [Segment.items_cons_argument hargument] at h
        obtain ⟨rest, -, h⟩ := bind_eq_ok.mp h
        injection h with h
        subst h
        cases hhead
      · exact ⟨token, op, tokens, rfl, hop⟩

theorem startsRedirection_argument {token : Token} (h : token.isArgument = true) (index : Nat)
    (tokens : List Token) :
    startsRedirection ⟨index, token :: tokens⟩ =
      .ok (decide (token.fd?.isSome ∧
        (Cursor.mk (index + 1) tokens).category? = some .redirect)) := by
  rw [startsRedirection, Cursor.category?_cons, Token.category_of_isArgument h,
    if_neg (by decide)]
  rfl

theorem exists_redirect_of_category (hrest : Segments.Behind rest others) {words : List Token}
    (hcut : ∀ token ∈ words, token.connector? = none) {index : Nat}
    (h : (Cursor.mk index (words ++ rest)).category? = some .redirect) :
    ∃ token op tail, words = token :: tail ∧ token.operator? = some (.redirect op) := by
  cases words with
  | nil => exact absurd h (hrest.category_ne_redirect index)
  | cons token tail =>
      rw [List.cons_append, Cursor.category?_cons, Option.some.injEq] at h
      rcases Token.argument_or_redirect (hcut token List.mem_cons_self) with hargument | ⟨op, hop⟩
      · rw [Token.category_of_isArgument hargument] at h
        cases h
      · exact ⟨token, op, tail, rfl, hop⟩

theorem readsItems_nil (hrest : Segments.Behind rest others) : ReadsItems rest others [] := by
  intro index
  cases hempty : rest.isEmpty with
  | true =>
      rw [List.nil_append, items, dif_pos hempty]
      rfl
  | false =>
      rw [List.nil_append, items_eq hempty, hrest.startsRedirection hempty, ok_bind,
        if_neg Bool.false_ne_true, if_neg (hrest.category_ne_argument index)]
      rfl

theorem readsItems_redirect (hrest : Segments.Behind rest others) {token : Token}
    {op : RedirectOp} (htoken : token.operator? = some (.redirect op)) {words : List Token}
    (hwords : ∀ target tail, words = target :: tail → ReadsItems rest others tail) :
    ReadsItems rest others (token :: words) := by
  intro index
  have hne : (Cursor.mk index (token :: words ++ rest)).rest.isEmpty = false := rfl
  have hstarts : startsRedirection ⟨index, token :: words ++ rest⟩ = .ok true :=
    if_pos (congrArg some (Token.category_of_redirect htoken))
  have hread : redirection ⟨index, token :: words ++ rest⟩ =
      redirectionTo op.text none ⟨index + 1, words ++ rest⟩ := by
    simp [redirection, Cursor.token, Cursor.next, Token.fd?_of_operator? htoken,
      Token.named_of_operator? htoken, Operator.text]
  rw [items_eq hne, hstarts, ok_bind, if_pos rfl, hread, Segments.add_length_cons]
  exact redirectionTo_append hrest htoken hwords none index

/-- A number in front of a redirection is read together with it. -/
theorem readsItems_number (hrest : Segments.Behind rest others) {number token : Token} {fd : Int}
    (hnumber : number.fd? = some fd) {op : RedirectOp}
    (htoken : token.operator? = some (.redirect op)) {words : List Token}
    (hwords : ∀ target tail, words = target :: tail → ReadsItems rest others tail) :
    ReadsItems rest others (number :: token :: words) := by
  intro index
  obtain rfl := Segment.fd?_eq_some hnumber
  have hargument := Token.isArgument_number (.int fd)
  have hne : (Cursor.mk index (.number (.int fd) :: token :: words ++ rest)).rest.isEmpty =
      false := rfl
  have hstarts : startsRedirection ⟨index, .number (.int fd) :: token :: words ++ rest⟩ =
      .ok true := by
    rw [List.cons_append, startsRedirection_argument hargument]
    exact congrArg Except.ok (decide_eq_true
      ⟨rfl, congrArg some (Token.category_of_redirect htoken)⟩)
  have hread : redirection ⟨index, .number (.int fd) :: token :: words ++ rest⟩ =
      redirectionTo op.text (some fd) ⟨index + 1 + 1, words ++ rest⟩ := by
    simp [redirection, Cursor.token, Cursor.next, hnumber, Token.named_of_operator? htoken,
      Operator.text]
  rw [items_eq hne, hstarts, ok_bind, if_pos rfl, hread, Segments.add_length_cons,
    Segments.add_length_cons, Segment.items_cons_argument hargument]
  refine (redirectionTo_append hrest htoken hwords (some fd) (index + 1)).trans ?_
  simp

theorem readsItems_word {token : Token} (hargument : token.isArgument = true)
    {words : List Token} (hcut : ∀ token ∈ words, token.connector? = none)
    (hfd : ∀ target tail op, words = target :: tail → target.operator? = some (.redirect op) →
      token.fd? = none)
    (hrest : Segments.Behind rest others) (hwords : ReadsItems rest others words) :
    ReadsItems rest others (token :: words) := by
  intro index
  have hne : (Cursor.mk index (token :: words ++ rest)).rest.isEmpty = false := rfl
  have hstarts : startsRedirection ⟨index, token :: words ++ rest⟩ = .ok false := by
    rw [List.cons_append, startsRedirection_argument hargument]
    refine congrArg Except.ok (decide_eq_false ?_)
    rintro ⟨hsome, hcategory⟩
    obtain ⟨target, op, tail, heq, hop⟩ := exists_redirect_of_category hrest hcut hcategory
    rw [hfd target tail op heq hop] at hsome
    cases hsome
  rw [items_eq hne, hstarts, ok_bind, if_neg Bool.false_ne_true, List.cons_append,
    Cursor.category?_cons, Token.category_of_isArgument hargument, if_pos rfl,
    Segments.add_length_cons, Segment.items_cons_argument hargument]
  change (items ⟨index + 1, words ++ rest⟩ >>= _) = _
  rw [hwords (index + 1)]
  cases hitems : Segment.items (Segments.following (index + 1 + words.length) others) (index + 1)
    words with
  | error e => rfl
  | ok read =>
      have hattach : Segment.attachFds (.word token :: read) =
          .word token :: Segment.attachFds read := by
        refine Segment.attachFds_word fun redirection hhead => ?_
        obtain ⟨target, op, tail, heq, hop⟩ := exists_redirect_of_items hcut hitems hhead
        exact hfd target tail op heq hop
      simp [hattach]

theorem readsItems (hrest : Segments.Behind rest others) {segment : List Token}
    (hcut : ∀ token ∈ segment, token.connector? = none) : ReadsItems rest others segment := by
  induction hlength : segment.length using Nat.strongRecOn generalizing segment with
  | ind n ih =>
      subst hlength
      cases segment with
      | nil => exact readsItems_nil hrest
      | cons token words =>
          obtain ⟨htoken, hwords⟩ := List.forall_mem_cons.mp hcut
          rcases Token.argument_or_redirect htoken with hargument | ⟨op, hop⟩
          · by_cases hfd : ∃ target tail op, words = target :: tail ∧
                target.operator? = some (.redirect op) ∧ token.fd? ≠ none
            · obtain ⟨target, tail, op, rfl, hop, hne⟩ := hfd
              obtain ⟨fd, hnumber⟩ := Option.ne_none_iff_exists'.mp hne
              refine readsItems_number hrest hnumber hop ?_
              rintro next tail rfl
              have htail := (List.forall_mem_cons.mp (List.forall_mem_cons.mp hwords).2).2
              exact ih tail.length (by simp only [List.length_cons]; omega) htail rfl
            · refine readsItems_word hargument hwords ?_ hrest
                (ih words.length (Nat.lt_succ_self _) hwords rfl)
              intro target tail op heq hop
              by_contra hne
              exact hfd ⟨target, tail, op, heq, hop, hne⟩
          · refine readsItems_redirect hrest hop ?_
            rintro target tail rfl
            exact ih tail.length (by simp only [List.length_cons]; omega)
              (List.forall_mem_cons.mp hwords).2 rfl

theorem command_append (hrest : Segments.Behind rest others) {segment : List Token}
    (hcut : ∀ token ∈ segment, token.connector? = none) (hne : segment ≠ []) (index : Nat) :
    command ⟨index, segment ++ rest⟩ =
      (lift (Segment.items (Segments.following (index + segment.length) others) index segment) >>=
        fun read => .ok (⟨Segment.attachFds read⟩, ⟨index + segment.length, rest⟩)) := by
  rw [command, readsItems hrest hcut index]
  cases hitems : Segment.items (Segments.following (index + segment.length) others) index
    segment with
  | error e => rfl
  | ok read =>
      have hread := (Stage.command_of_items hcut hne hitems).1.nonempty
      simp [hread, pure_eq_ok]

theorem command_nil (hrest : Segments.Behind rest others) (index : Nat) :
    command ⟨index, rest⟩ =
      .error (GrammarError.expectedCommand (Segments.following index others)).fault := by
  have hread := readsItems_nil hrest index
  rw [List.nil_append] at hread
  rw [command, hread]
  change ((Cursor.mk index rest).describe >>= fun found => _) = _
  rw [hrest.describe, hrest.position]
  rfl

theorem command_eq_ofSegment (hrest : Segments.Behind rest others) {segment : List Token}
    (hcut : ∀ token ∈ segment, token.connector? = none) (op : PipeOp) (index : Nat) :
    (command ⟨index, segment ++ rest⟩ >>= fun (first, next) =>
      .ok ((⟨false, first⟩ : Stage), next)) =
    (lift (Stage.ofSegment (some (.pipe op)) (Segments.following (index + segment.length) others)
      index segment) >>= fun first => .ok (first, ⟨index + segment.length, rest⟩)) := by
  cases segment with
  | nil =>
      rw [List.nil_append, command_nil hrest]
      cases others <;> rfl
  | cons token words =>
      have hne : token :: words ≠ [] := List.cons_ne_nil token words
      rcases Stage.splitNegation_cases (some (.pipe op)) (token :: words) with
        ⟨_, _, _, hstarts, _⟩ | ⟨hsplit, -⟩
      · cases hstarts
      · rw [command_append hrest hcut hne, Stage.ofSegment_of_split hne hsplit]
        simp

theorem isNegation_iff {token : Token} :
    isNegation token = true ↔ token = .symbol Stage.negationWord := by
  cases token <;> simp [isNegation]

theorem startsCommand_append (hrest : Segments.Behind rest others) {words : List Token}
    (hcut : ∀ token ∈ words, token.connector? = none) (index : Nat) :
    startsCommand ⟨index, words ++ rest⟩ = .ok (!words.isEmpty) := by
  cases words with
  | nil =>
      cases hempty : rest.isEmpty with
      | true => exact if_pos hempty
      | false =>
          rw [List.nil_append, startsCommand, if_neg (by simp [hempty]),
            if_neg (hrest.category_ne_argument index), hrest.startsRedirection hempty]
          rfl
  | cons token words =>
      have hne : (Cursor.mk index (token :: words ++ rest)).rest.isEmpty ≠ true :=
        Bool.false_ne_true
      rw [startsCommand, if_neg hne, List.cons_append, Cursor.category?_cons]
      rcases Token.argument_or_redirect (hcut token List.mem_cons_self) with hargument | ⟨op, hop⟩
      · rw [Token.category_of_isArgument hargument, if_pos rfl]
        rfl
      · rw [Token.category_of_redirect hop, if_neg (by decide), startsRedirection,
          Cursor.category?_cons, Token.category_of_redirect hop, if_pos rfl]
        rfl

theorem stage_cons (index : Nat) (token : Token) (tokens : List Token) :
    stage ⟨index, token :: tokens⟩ =
      ((if isNegation token then startsCommand ⟨index + 1, tokens⟩ else .ok false) >>=
        fun negated => command (if negated then ⟨index + 1, tokens⟩ else ⟨index, token :: tokens⟩)
          >>= fun (first, next) => .ok (⟨negated, first⟩, next)) := rfl

theorem stage_eq_ofSegment (hrest : Segments.Behind rest others) {segment : List Token}
    (hcut : ∀ token ∈ segment, token.connector? = none) {before : Option Connector}
    (hstarts : startsPipeline before = true) (index : Nat)
    (hne : (segment ++ rest).isEmpty = false) :
    stage ⟨index, segment ++ rest⟩ =
    (lift (Stage.ofSegment before (Segments.following (index + segment.length) others)
      index segment) >>= fun first => .ok (first, ⟨index + segment.length, rest⟩)) := by
  cases segment with
  | nil =>
      have hcommand := command_nil hrest index
      cases hrest with
      | nil => cases hne
      | @cons token connector second rest others hconnector hsecond hrest =>
          have hplain : isNegation token = false := by
            rw [← Bool.not_eq_true, isNegation_iff]
            rintro rfl
            cases hconnector
          rw [List.nil_append, stage_cons, hplain, if_neg Bool.false_ne_true, ok_bind,
            if_neg Bool.false_ne_true, hcommand]
          rfl
  | cons token words =>
      have hwords := (List.forall_mem_cons.mp hcut).2
      have hcons : token :: words ≠ [] := List.cons_ne_nil token words
      rw [List.cons_append, stage_cons]
      rcases Stage.splitNegation_cases before (token :: words) with
        ⟨second, tail, heq, -, hsplit⟩ | ⟨hsplit, hplain⟩
      · obtain ⟨rfl, rfl⟩ := List.cons.inj heq
        have hsecond : (!(second :: tail).isEmpty) = true := rfl
        rw [if_pos (isNegation_iff.mpr rfl), startsCommand_append hrest hwords, ok_bind, hsecond,
          if_pos rfl, command_append hrest hwords (List.cons_ne_nil second tail),
          Stage.ofSegment_of_split hcons hsplit, if_pos rfl,
          Segments.add_length_cons index (.symbol Stage.negationWord)]
        simp
      · have hnegated : (if isNegation token then startsCommand ⟨index + 1, words ++ rest⟩
            else .ok false) = .ok false := by
          split
          · next hnegation =>
              cases words with
              | nil => exact startsCommand_append hrest hwords (index + 1)
              | cons second tail =>
                  rw [isNegation_iff.mp hnegation] at hplain
                  exact absurd rfl (hplain hstarts second tail)
          · rfl
        rw [hnegated, ok_bind, if_neg Bool.false_ne_true, Stage.ofSegment_of_split hcons hsplit,
          if_neg Bool.false_ne_true, ← List.cons_append, command_append hrest hcut hcons]
        simp

def spine (first : Stage) (cursor : Cursor) : Except Fault Spine := do
  let (commands, afterCommands) ← many .pipe none command command_advances cursor
  let (pipelines, afterPipelines) ←
    many .clause (some "missing pipeline after ") pipeline pipeline_advances afterCommands
  let (clauses, last) ←
    many .background (some "missing command after ") clause clause_advances afterPipelines
  if last.rest.isEmpty then
    return ⟨first, commands, pipelines, clauses⟩
  else
    let found ← last.describe
    .error (.leftover found last.index)

theorem spine_bind {α : Type} (first : Stage) (cursor : Cursor) (f : Spine → α) :
    (spine first cursor >>= fun spine => .ok (f spine)) =
      (many .pipe none command command_advances cursor >>= fun (commands, afterCommands) =>
        many .clause (some "missing pipeline after ") pipeline pipeline_advances afterCommands >>=
          fun (pipelines, afterPipelines) =>
        many .background (some "missing command after ") clause clause_advances afterPipelines >>=
          fun (clauses, last) =>
        if last.rest.isEmpty then .ok (f ⟨first, commands, pipelines, clauses⟩)
        else last.describe >>= fun found => .error (.leftover found last.index)) := by
  simp only [spine, bind_assoc]
  refine bind_congr fun commands => bind_congr fun pipelines => bind_congr fun clauses => ?_
  cases clauses.2.rest.isEmpty with
  | true => rfl
  | false => cases clauses.2.describe <;> rfl

theorem parse_eq_spine {tokens : List Token} (h : tokens.isEmpty = false) :
    parse tokens =
      (stage ⟨0, tokens⟩ >>= fun (first, next) =>
        spine first next >>= fun spine => .ok spine.list) := by
  rw [parse, if_neg (by simp [h]), clause]
  simp only [pipeline, spine_bind, bind_assoc, pure_eq_ok, ok_bind]
  rfl

theorem spine_nil (first : Stage) (index : Nat) :
    spine first ⟨index, []⟩ = .ok (Spine.single first) := by
  have hnone : ∀ category, (Cursor.mk index []).category? ≠ some category := by
    simp [Cursor.category?]
  simp only [spine, many_of_ne (hnone _), ok_bind]
  rfl

theorem spine_pipe {token : Token} {op : PipeOp}
    (h : token.operator? = some (.connect (.pipe op))) (first : Stage) (index : Nat)
    (tokens : List Token) :
    spine first ⟨index, token :: tokens⟩ =
      (command ⟨index + 1, tokens⟩ >>= fun (second, next) =>
        spine ⟨false, second⟩ next >>= fun spine => .ok (spine.cons first (.pipe op))) := by
  have hcategory : (Cursor.mk index (token :: tokens)).category? = some .pipe := by
    simp [Token.category, h]
  simp only [spine_bind]
  rw [spine, many_of_category hcategory]
  simp only [bind_assoc, pure_eq_ok, ok_bind, Cursor.token, demand, Token.named_of_operator? h]
  rfl

theorem spine_clause {token : Token} {op : ClauseOp}
    (h : token.operator? = some (.connect (.clause op))) (first : Stage) (index : Nat)
    (tokens : List Token) :
    spine first ⟨index, token :: tokens⟩ =
      (demand (some "missing pipeline after ") (Connector.clause op).text ⟨index + 1, tokens⟩ >>=
        fun _ => stage ⟨index + 1, tokens⟩ >>= fun (second, next) =>
        spine second next >>= fun spine => .ok (spine.cons first (.clause op))) := by
  have hcategory : (Cursor.mk index (token :: tokens)).category? = some .clause := by
    simp [Token.category, h]
  have hpipe : (Cursor.mk index (token :: tokens)).category? ≠ some .pipe := by simp [hcategory]
  simp only [spine_bind]
  rw [spine, many_of_ne hpipe]
  simp only [many_of_category hcategory, bind_assoc, pure_eq_ok, ok_bind, Cursor.token, pipeline,
    Token.named_of_operator? h]
  rfl

theorem spine_background {token : Token}
    (h : token.operator? = some (.connect .background)) (first : Stage) (index : Nat)
    (tokens : List Token) :
    spine first ⟨index, token :: tokens⟩ =
      (demand (some "missing command after ") Connector.background.text ⟨index + 1, tokens⟩ >>=
        fun _ => stage ⟨index + 1, tokens⟩ >>= fun (second, next) =>
        spine second next >>= fun spine => .ok (spine.cons first .background)) := by
  have hcategory : (Cursor.mk index (token :: tokens)).category? = some .background := by
    simp [Token.category, h]
  have hpipe : (Cursor.mk index (token :: tokens)).category? ≠ some .pipe := by simp [hcategory]
  have hclause : (Cursor.mk index (token :: tokens)).category? ≠ some .clause := by
    simp [hcategory]
  simp only [spine_bind]
  rw [spine, many_of_ne hpipe]
  simp only [many_of_ne hclause, many_of_category hcategory, bind_assoc, pure_eq_ok, ok_bind,
    Cursor.token, clause, pipeline, Token.named_of_operator? h]
  rfl

def stagesOf (index : Nat) :
    List (Connector × List Token) → Except GrammarError (List (Connector × Stage))
  | [] => .ok []
  | (connector, second) :: others =>
    Stage.ofSegments (some connector) (index + 1) second others >>= fun (stage, stages) =>
      .ok ((connector, stage) :: stages)

theorem ofSegments_eq (before : Option Connector) (index : Nat) (first : List Token)
    (others : List (Connector × List Token)) :
    Stage.ofSegments before index first others =
      (Stage.ofSegment before (Segments.following (index + first.length) others) index first >>=
        fun stage => stagesOf (index + first.length) others >>= fun stages =>
          .ok (stage, stages)) := by
  cases others with
  | nil => rfl
  | cons other others =>
      obtain ⟨connector, second⟩ := other
      simp only [Stage.ofSegments, stagesOf, bind_assoc, ok_bind, pure_eq_ok]
      rfl

/-- An operator at the end of the tokens is refused before anything is read behind it. -/
theorem demand_bind_stage (hrest : Segments.Behind rest others) {segment : List Token}
    (hcut : ∀ token ∈ segment, token.connector? = none) {connector : Connector} {cause : String}
    (hcause : (GrammarError.ofEmptySegment (some connector) .endOfInput).fault =
      .grammar (.join [cause, Text.quoted connector.text]) none)
    (hstarts : startsPipeline (some connector) = true) (index : Nat) :
    (demand (some cause) connector.text ⟨index, segment ++ rest⟩ >>= fun _ =>
      stage ⟨index, segment ++ rest⟩) =
    (lift (Stage.ofSegment (some connector) (Segments.following (index + segment.length) others)
      index segment) >>= fun first => .ok (first, ⟨index + segment.length, rest⟩)) := by
  cases hempty : (segment ++ rest).isEmpty with
  | true =>
      obtain ⟨rfl, rfl⟩ := List.append_eq_nil_iff.mp (List.isEmpty_iff.mp hempty)
      cases hrest
      have hdemand : demand (some cause) connector.text ⟨index, []⟩ =
          .error (GrammarError.ofEmptySegment (some connector) .endOfInput).fault := by
        rw [hcause]
        rfl
      rw [List.append_nil, hdemand]
      rfl
  | false =>
      rw [demand, if_neg (by simp [hempty]), ok_bind,
        stage_eq_ofSegment hrest hcut hstarts index hempty]

theorem spine_eq (hrest : Segments.Behind rest others) (first : Stage) (index : Nat) :
    spine first ⟨index, rest⟩ =
      (lift (stagesOf index others) >>= fun stages => .ok (Spine.ofStages first stages)) := by
  induction hrest generalizing first index with
  | nil => exact spine_nil first index
  | @cons token connector second rest others hconnector hcut hrest ih =>
      have hstages : (lift (stagesOf index ((connector, second) :: others)) >>= fun stages =>
            .ok (Spine.ofStages first stages)) =
          ((lift (Stage.ofSegment (some connector)
              (Segments.following (index + 1 + second.length) others) (index + 1) second) >>=
            fun stage => .ok (stage, Cursor.mk (index + 1 + second.length) rest)) >>=
            fun (stage, next) => spine stage next >>= fun spine =>
              .ok (spine.cons first connector)) := by
        rw [stagesOf, ofSegments_eq]
        simp only [GrammarError.lift_bind, GrammarError.lift_ok, bind_assoc, ok_bind, ih]
        rfl
      rw [hstages]
      cases connector with
      | pipe op =>
          rw [spine_pipe hconnector, ← command_eq_ofSegment hrest hcut]
          simp only [bind_assoc, ok_bind]
      | clause op =>
          rw [spine_clause hconnector, ← demand_bind_stage hrest hcut rfl rfl]
          simp only [bind_assoc]
      | background =>
          rw [spine_background hconnector, ← demand_bind_stage hrest hcut rfl rfl]
          simp only [bind_assoc]

theorem parse_eq (tokens : List Token) : parse tokens = lift (CommandList.parse tokens) := by
  obtain ⟨rest, htokens, hrest⟩ := Segments.exists_behind tokens
  cases hempty : tokens.isEmpty with
  | true =>
      rw [List.isEmpty_iff.mp hempty]
      rfl
  | false =>
      have hcut := (Segments.isCut_ofTokens tokens).1
      have hstarts : startsPipeline none = true := rfl
      have hstage := stage_eq_ofSegment hrest hcut hstarts 0
      rw [← htokens] at hstage
      rw [parse_eq_spine hempty, hstage hempty, CommandList.parse_eq, ofSegments_eq]
      simp only [GrammarError.lift_bind, GrammarError.lift_ok, bind_assoc, ok_bind,
        spine_eq hrest]

end Descent
end ShellLowering
