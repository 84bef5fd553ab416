import OpenApiClient.Client.Basic
import OpenApiClient.Proofs.Outcome
import OpenApiClient.Proofs.Php.CommentText
import OpenApiClient.Proofs.Php.Dispatch
import OpenApiClient.Proofs.Text.Pieces

/-!
What the comment on a method and its return type say of the dispatch of statuses: that a status which is not documented
is an error, and which classes there may be.
-/

namespace OpenApiClient

namespace Php

-- The line for statuses that are not documented.
def notice (root : String) : String := "@throws " ++ exceptionClass root ++ " when the status code is not documented"

-- The arm for them.
def unknownArm (root : String) : StatusArm := ⟨.otherwise, .fail (exceptionClass root)⟩

-- The summary or the description reads like that line.
def Quotes (root : String) (e : Endpoint) : Prop :=
  ∃ text, (e.summary = some text ∨ e.description = some text) ∧ commentText text = commentText (notice root)

section

variable {root text line : String} {e : Endpoint} {responses : List StatusResponse} {c d : Char} {s : List Char}

theorem toList_commentText (text : String) : (commentText text).toList = defuse (Text.squeeze text.toList) :=
  String.toList_ofList

theorem mem_defuse : {s : List Char} → c ∈ s → c ∈ defuse s
  | x :: s, h => by
    by_cases closing : x = '*' ∧ s.head? = some '/'
    case pos =>
      obtain ⟨rfl, first⟩ := closing
      obtain ⟨s, rfl⟩ := List.head?_eq_some_iff.mp first
      have rest : c ∈ s → c ∈ defuse s := mem_defuse
      rw [defuse_closing]
      simp only [List.mem_cons] at h ⊢
      tauto
    case neg =>
      rw [defuse_cons closing]
      exact List.mem_cons.mpr ((List.mem_cons.mp h).imp_right mem_defuse)
termination_by s => s.length

-- The first characters of a line are those of the text in the comment,
theorem commentText_lead (hc : Text.isBlank c = false) (hd : Text.isBlank d = false) (star : c ≠ '*')
    (rest : String) : (commentText (String.ofList (c :: d :: s) ++ rest)).toList.take 2 = [c, d] := by
  obtain ⟨others, folded⟩ := Text.squeeze_cons hd (s ++ rest.toList)
  have first : (defuse (d :: others)).head? = some d := head?_defuse _
  obtain ⟨more, first⟩ := List.head?_eq_some_iff.mp first
  rw [toList_commentText, String.toList_append, String.toList_ofList, List.cons_append, List.cons_append,
    Text.squeeze_cons_cons hc hd, folded, defuse_cons (by simp [star]), first]
  rfl

-- and no character but white space is lost.
theorem mem_commentText (hc : c ∈ text.toList) (h : Text.isBlank c = false) : c ∈ (commentText text).toList := by
  rw [toList_commentText]
  exact mem_defuse (Text.mem_squeeze hc h)

theorem lead_notice (root : String) : (commentText (notice root)).toList.take 2 = ['@', 't'] := by
  rw [notice, String.append_assoc]
  exact commentText_lead rfl rfl (by decide) _

theorem commentText_ne_notice (hc : Text.isBlank c = false) (hd : Text.isBlank d = false) (star : c ≠ '*')
    (h : [c, d] ≠ ['@', 't']) (rest : String) :
    commentText (String.ofList (c :: d :: s) ++ rest) ≠ commentText (notice root) := by
  intro same
  have lead := commentText_lead (s := s) hc hd star rest
  rw [same, lead_notice] at lead
  exact h lead.symm

theorem parameterLine_ne_notice (p : MethodParameter) :
    commentText (MethodComment.parameterLine p) ≠ commentText (notice root) := by
  simp only [MethodComment.parameterLine, String.append_assoc]
  exact commentText_ne_notice rfl rfl (by decide) (by decide) _

theorem transportLine_ne_notice :
    commentText "@throws \\Psr\\Http\\Client\\ClientExceptionInterface" ≠ commentText (notice root) := by
  intro same
  have kept : 'd' ∈ (commentText (notice root)).toList := mem_commentText (by simp [notice]) rfl
  rw [← same] at kept
  revert kept
  decide

theorem requestLine_ne_notice (method : HttpMethod) (path : String) :
    commentText (method.name ++ " " ++ path) ≠ commentText (notice root) := by
  rw [String.append_assoc]
  cases method
  all_goals exact commentText_ne_notice rfl rfl (by decide) (by decide) _

-- A line of text stands in a comment only as one that was put there.
theorem line_mem_comment_iff {lines : List (Option String)} : " * " ++ line ∈ comment lines ↔ some line ∈ lines := by
  have apart {chars : List Char} (h : ¬ [' ', '*', ' '] <+: chars) : " * " ++ line ≠ String.ofList chars := by
    rintro same
    have same := congrArg String.toList same
    rw [String.toList_append, String.toList_ofList (l := chars)] at same
    exact h ⟨line.toList, same⟩
  have opening : " * " ++ line ≠ "/**" := apart (by decide)
  have closing : " * " ++ line ≠ " */" := apart (by decide)
  have empty : " * " ++ line ≠ " *" := apart (by decide)
  simp only [comment, List.mem_append, List.mem_cons, List.mem_map, opening, closing, false_or, or_false,
    List.not_mem_nil]
  constructor
  · rintro ⟨said, among, same⟩
    cases said with
    | none => exact absurd same.symm empty
    | some text => exact (String.append_right_inj " * ").mp same ▸ among
  · exact fun among => ⟨some line, among, rfl⟩

theorem of_mem_descriptionLines (h : line ∈ MethodComment.descriptionLines e) :
    line = "" ∨ e.summary = some line ∨ e.description = some line := by
  simp only [MethodComment.descriptionLines, List.mem_flatMap, Option.mem_toList, List.mem_cons,
    List.not_mem_nil, or_false] at h
  obtain ⟨_, ht, said, rfl, rfl | rfl⟩ := h
  case inl => exact .inr (ht.imp .symm .symm)
  case inr => exact .inl rfl

theorem notice_mem_methodComment_iff :
    " * " ++ commentText (notice root) ∈ methodComment root e ↔ saysUndocumented e ∨ Quotes root e := by
  have empty_line : commentText "" ≠ commentText (notice root) := by
    intro same
    have lead := lead_notice root
    rw [← same] at lead
    exact absurd lead (by decide)
  have told {lines : Lines} : some (commentText (notice root)) ∈
      lines.map (fun line => if line = "" then none else some (commentText line)) ↔
        ∃ line ∈ lines, commentText line = commentText (notice root) := by
    rw [List.mem_map]
    refine exists_congr fun line => and_congr_right' ?_
    split
    case isTrue h => exact iff_of_false (Option.some_ne_none _).symm (h ▸ empty_line)
    case isFalse => exact Option.some_inj
  rw [methodComment, line_mem_comment_iff, told]
  constructor
  · rintro ⟨line, among, same⟩
    simp only [MethodComment.lines, List.mem_append, List.mem_cons, List.mem_map, List.not_mem_nil, or_false,
      List.mem_ite_nil_right] at among
    rcases among with (((((told | rfl | rfl) | ⟨p, -, rfl⟩) | rfl) | ⟨said, -⟩) | rfl) | ⟨-, rfl⟩
    · rcases of_mem_descriptionLines told with rfl | stands
      · exact absurd same empty_line
      · exact .inr ⟨line, stands, same⟩
    · exact absurd same (requestLine_ne_notice _ _)
    · exact absurd same empty_line
    · exact absurd same (parameterLine_ne_notice p)
    · exact absurd same (commentText_ne_notice rfl rfl (by decide) (by decide) _)
    · exact .inl said
    · exact absurd same transportLine_ne_notice
    · rw [← String.append_empty (s := "@deprecated")] at same
      exact absurd same (commentText_ne_notice rfl rfl (by decide) (by decide) _)
  · rintro (said | ⟨text, stands, same⟩)
    · exact ⟨notice root, by simp [MethodComment.lines, said, notice], rfl⟩
    · refine ⟨text, ?_, same⟩
      rcases stands with stands | stands
      all_goals simp [MethodComment.lines, MethodComment.descriptionLines, stands]

theorem outcome_of_mem {arm : StatusArm} (h : arm ∈ responses.filterMap (statusArm? root)) :
    ∃ r ∈ responses, arm.outcome = .construct (responseClass root r.className) := by
  obtain ⟨r, hr, said⟩ := List.mem_filterMap.mp h
  obtain ⟨test, -, rfl⟩ := Option.map_eq_some_iff.mp said
  exact ⟨r, hr, rfl⟩

-- An arm is for a response, unless no response is a default.
theorem of_mem_statusArms {arm : StatusArm} (h : arm ∈ statusArms root responses) :
    (∃ r ∈ responses, arm.outcome = .construct (responseClass root r.className)) ∨
    arm = unknownArm root ∧ ∀ r ∈ responses, ¬ r.isDefault := by
  unfold statusArms at h
  dsimp only at h
  rw [default_arm] at h
  simp only [List.mem_append, List.mem_filter, List.mem_singleton] at h
  rcases h with (⟨among, -⟩ | ⟨among, -⟩) | rfl
  · exact .inl (outcome_of_mem among)
  · exact .inl (outcome_of_mem among)
  · cases found : responses.reverse.find? (·.isDefault) with
    | none => exact .inr ⟨rfl, by simpa using found⟩
    | some r => exact .inl ⟨r, by simpa using List.mem_of_find?_eq_some found, rfl⟩

theorem unknownArm_mem_iff : unknownArm root ∈ statusArms root responses ↔ ∀ r ∈ responses, ¬ r.isDefault := by
  constructor
  · intro h
    rcases of_mem_statusArms h with ⟨r, -, outcome⟩ | ⟨-, none_default⟩
    · contradiction
    · exact none_default
  · intro none_default
    have found : responses.reverse.find? (·.isDefault) = none := by simpa using none_default
    unfold statusArms
    dsimp only
    rw [default_arm, found]
    exact List.mem_append_right _ List.mem_cons_self

end

-- A method declares what its dispatch does exactly if a default is not only there in another spelling, and if with a
-- default nothing else in the comment reads like the line for statuses that are not documented. The classes that its
-- arms construct are always in its return type.
theorem contract_kept_iff (root : String) {e : Endpoint} (h : e.responses ≠ []) :
    (∃ head before, methodLines root e = methodComment root e ++ braced (head ++ "): " ++ returnType root e)
      (before ++ enclose "return match (true) \x7b" ((statusArms root e.responses).map (·.text)) "\x7d;")) ∧
    ((" * " ++ commentText (notice root) ∈ methodComment root e ↔ unknownArm root ∈ statusArms root e.responses) ↔
      ((∃ r ∈ e.responses, r.isDefault) → (∃ r ∈ e.responses, r.status = "default") ∧ ¬ Quotes root e)) ∧
    returnType root e = "|".intercalate (responseClasses root e) ∧
    ∀ arm ∈ statusArms root e.responses, ∀ name, arm.outcome = .construct name → name ∈ responseClasses root e := by
  have class_mem {r : StatusResponse} (hr : r ∈ e.responses) : responseClass root r.className ∈ responseClasses root e :=
    List.mem_eraseDups.mpr (List.mem_map_of_mem hr)
  refine ⟨?_, ?_, ?_, ?_⟩
  · rw [methodLines, dispatchLines, if_neg h, ← List.append_assoc]
    exact ⟨_, _, rfl⟩
  · rw [notice_mem_methodComment_iff, unknownArm_mem_iff]
    have said : saysUndocumented e ↔ ∀ r ∈ e.responses, r.status ≠ "default" := by simp [saysUndocumented, h]
    have known {r : StatusResponse} (exact_key : r.status = "default") : r.isDefault := by
      simp [StatusResponse.isDefault, exact_key, Naming.foldCase]
    rw [said]
    by_cases default : ∃ r ∈ e.responses, r.isDefault
    case pos =>
      have some_default : ¬ ∀ r ∈ e.responses, ¬ r.isDefault := by simpa using default
      rw [iff_false_intro some_default, iff_false, not_or, forall_prop_of_true default]
      simp
    case neg =>
      have no_default : ∀ r ∈ e.responses, ¬ r.isDefault := by simpa using default
      exact iff_of_true (iff_of_true (.inl fun r hr exact_key => no_default r hr (known exact_key)) no_default)
        fun some_default => absurd some_default default
  · rw [returnType]
    split
    case h_1 none =>
      obtain ⟨r, hr⟩ := List.exists_mem_of_ne_nil _ h
      exact absurd none (List.ne_nil_of_mem (class_mem hr))
    case h_2 => rfl
  · intro arm ha name constructed
    rcases of_mem_statusArms ha with ⟨r, hr, outcome⟩ | ⟨rfl, -⟩
    · obtain rfl := StatusOutcome.construct.inj (outcome.symm.trans constructed)
      exact class_mem hr
    · contradiction

end Php

theorem Php.desk_contract_kept : Desk.fetch.responses ≠ [] ∧
    " * " ++ commentText (notice "Acme") ∉ methodComment "Acme" Desk.fetch ∧
    unknownArm "Acme" ∉ statusArms "Acme" Desk.fetch.responses ∧
    returnType "Acme" Desk.fetch = "|".intercalate (responseClasses "Acme" Desk.fetch) := by
  have some_response : Desk.fetch.responses ≠ [] := List.cons_ne_nil _ _
  obtain ⟨-, kept, classes, -⟩ := contract_kept_iff "Acme" some_response
  have unquoted : ¬ Quotes "Acme" Desk.fetch := by
    rintro ⟨text, stands | stands, -⟩
    all_goals exact absurd stands.symm (Option.some_ne_none text)
  have default : (⟨"default", "Fetched"⟩ : StatusResponse) ∈ Desk.fetch.responses := List.mem_cons_self
  have no_arm : unknownArm "Acme" ∉ statusArms "Acme" Desk.fetch.responses := by decide +kernel
  have kept := kept.mpr fun _ => ⟨⟨_, default, rfl⟩, unquoted⟩
  exact ⟨some_response, fun told => no_arm (kept.mp told), no_arm, classes⟩

namespace Board

-- A page that is answered in some ways.
def document (keys : List String) : Document where
  openapi := "3.1.0"
  info := { title := "Board", version := "1" }
  paths := [("/board", { get := some {
    tags := ["board"]
    responses := keys.map fun key => (key, .inline { description := "A board" }) } })]

end Board

namespace Document

open Php

-- The default in another spelling counts for the dispatch, and not for the comment.
theorem not_contract_kept : ∃ c e,
    (Board.document ["200", "Default"]).client Client.defaultNamespace = .ok c ∧ c.endpoints = [e] ∧
    e.responses ≠ [] ∧ " * " ++ commentText (notice c.rootNamespace) ∈ methodComment c.rootNamespace e ∧
    unknownArm c.rootNamespace ∉ statusArms c.rootNamespace e.responses := by
  have built : ((Board.document ["200", "Default"]).client Client.defaultNamespace).toOption.map (fun c =>
      c.endpoints.map fun e => (e.responses.isEmpty,
        decide (" * " ++ commentText (notice c.rootNamespace) ∈ methodComment c.rootNamespace e),
        decide (unknownArm c.rootNamespace ∈ statusArms c.rootNamespace e.responses))) =
          some [(false, true, false)] := by decide +kernel
  obtain ⟨c, hc, built⟩ := exists_ok built
  obtain ⟨e, one, told⟩ := List.map_eq_singleton_iff.mp built
  obtain ⟨some_response, told⟩ := Prod.mk.inj told
  obtain ⟨told, no_arm⟩ := Prod.mk.inj told
  exact ⟨c, e, hc, one, by simpa using some_response, of_decide_eq_true told, of_decide_eq_false no_arm⟩

end Document

end OpenApiClient
