import WebConfigAudit.Proofs.AlikeNodes
import WebConfigAudit.Proofs.LetterCase
/-!
Spelling that does not matter: the case of letters in the names and values of
attributes, the kind of the quote marks, and blanks at the ends of a value.  A
walk over nodes that are spelled in another way reports the same.
-/

namespace WebConfigAudit

open Text (SameLetters)

/-- The second raw value is the first one, or is the first one's text in quote
marks of any kind, with blanks around it and its letters in any case. -/
inductive RespelledValue : String → String → Prop where
  | same (raw : String) : RespelledValue raw raw
  | quoted (mark mark' : Char) (text text' before after : List Char)
      (hmark : isQuoteMark mark = true) (hmark' : isQuoteMark mark' = true)
      (hbefore : ∀ c ∈ before, Text.isBlank c = true)
      (hafter : ∀ c ∈ after, Text.isBlank c = true)
      (hletters : SameLetters text text') :
      RespelledValue (String.ofList (mark :: text ++ [mark]))
        (String.ofList (mark' :: (before ++ text' ++ after) ++ [mark']))

/-- The tokens of a statement in another spelling.  Tokens may be missing, but
the same ones. -/
inductive RespelledTokens : List Node → List Node → Prop where
  | none : RespelledTokens [] []
  | name {name name' : Node}
        (hname : SameLetters name.text.toList name'.text.toList) :
      RespelledTokens [name] [name']
  | both {name value name' value' : Node} {others others' : List Node}
      (hname : SameLetters name.text.toList name'.text.toList)
      (hvalue : RespelledValue value.text value'.text) :
      RespelledTokens (name :: value :: others) (name' :: value' :: others')

namespace Node

/-- A child of an element in another spelling.  All of it may differ but its
kind, its place and, if it is a statement, what its tokens say. -/
structure RespelledChild (child respelled : Node) : Prop where
  kind : respelled.kind = child.kind
  span : respelled.span = child.span
  tokens : child.kind = .statement →
    RespelledTokens child.children respelled.children

/-- A node whose attribute statements are in another spelling.  The text of a
statement is made of its tokens, so only the texts of other nodes stay. -/
structure Respelled (node respelled : Node) : Prop where
  kind : respelled.kind = node.kind
  span : respelled.span = node.span
  text : node.kind ≠ .statement → respelled.text = node.text
  children : List.Forall₂ RespelledChild node.children respelled.children

end Node

section Value

theorem stripQuoteMarks_quoted {mark : Char} (hmark : isQuoteMark mark = true)
    (cs : List Char) : stripQuoteMarks (mark :: cs ++ [mark]) = cs := by
  simp [stripQuoteMarks, dropQuoteMark, hmark]

/-- What is left of a value without its quotes and blanks is the same but for
the case of letters. -/
theorem RespelledValue.sameLetters {raw raw' : String}
    (hvalue : RespelledValue raw raw') :
    SameLetters (Text.trim (stripQuotes raw)).toList
      (Text.trim (stripQuotes raw')).toList := by
  cases hvalue with
  | same => exact SameLetters.refl _
  | quoted mark mark' text text' before after hmark hmark' hbefore hafter
      hletters =>
      simp only [Text.trim, stripQuotes, String.toList_ofList,
        stripQuoteMarks_quoted hmark, stripQuoteMarks_quoted hmark',
        Text.trimChars_of_blank hbefore hafter]
      exact hletters.trimChars

theorem AttributeMatch.reading_eq_of_respelled
    {found respelled : AttributeMatch}
    (hvalue : RespelledValue found.value.text respelled.value.text) :
    respelled.reading = found.reading := by
  have hsame := hvalue.sameLetters.symm
  simp only [reading, normalizedValue, valueText, Text.lowercase,
    hsame.readDecimal_eq, hsame.lowerChars_eq]

end Value

theorem nameBegins_eq_of_respelled {name name' : Node} (wanted : List Char)
    (hname : SameLetters name.text.toList name'.text.toList) :
    nameBegins wanted name' = nameBegins wanted name := by
  rw [nameBegins, nameBegins, hname.lowerChars_eq]

/-- The look-up stops at the same statement and ends there in the same way. -/
theorem findStatement_eq_of_respelled {children respelled : List Node}
    (hchildren : List.Forall₂ Node.RespelledChild children respelled)
    (wanted : List Char) :
    (findStatement wanted respelled).toOption.map
        (Option.map AttributeMatch.reading) =
      (findStatement wanted children).toOption.map
        (Option.map AttributeMatch.reading) := by
  induction hchildren with
  | nil => rfl
  | @cons child child' _ _ hchild _ ih =>
      rw [findStatement, findStatement, hchild.kind]
      by_cases hkind : child.kind = .statement
      · rw [if_pos hkind, if_pos hkind]
        obtain htokens := hchild.tokens hkind
        generalize child.children = tokens at htokens
        generalize child'.children = tokens' at htokens
        cases htokens with
        | none => rfl
        | name hname =>
            dsimp only
            rw [nameBegins_eq_of_respelled wanted hname]
            split
            · rfl
            · exact ih
        | both hname hvalue =>
            dsimp only
            rw [nameBegins_eq_of_respelled wanted hname]
            split
            · exact congrArg (some ∘ some)
                (AttributeMatch.reading_eq_of_respelled hvalue)
            · exact ih
      · rw [if_neg hkind, if_neg hkind]
        exact ih

theorem span_tagName_eq_of_respelled {children respelled : List Node}
    (hchildren : List.Forall₂ Node.RespelledChild children respelled) :
    (respelled.find? fun child => child.kind == .tagName).map Node.span =
      (children.find? fun child => child.kind == .tagName).map Node.span := by
  induction hchildren with
  | nil => rfl
  | @cons child child' _ _ hchild _ ih =>
      rw [List.find?_cons, List.find?_cons, hchild.kind]
      split
      · exact congrArg some hchild.span
      · exact ih

theorem Node.Respelled.location_eq {node respelled : Node}
    (hnode : node.Respelled respelled) :
    respelled.location = node.location := by
  have hspan := span_tagName_eq_of_respelled (List.rel_reverse hnode.children)
  have hname : respelled.tagName?.map Node.span = node.tagName?.map Node.span :=
    hspan
  unfold Node.location
  cases hfound : node.tagName? with
  | none =>
      rw [hfound, Option.map_none, Option.map_eq_none_iff] at hname
      rw [hname]
      exact hnode.span
  | some name =>
      rw [hfound] at hname
      obtain ⟨name', hname', hsame⟩ := Option.map_eq_some_iff.mp hname
      rw [hname']
      dsimp only
      rw [hsame, hnode.span]

theorem Node.Respelled.seesAlike {node respelled : Node}
    (hnode : node.Respelled respelled) (rules : RuleSet) :
    rules.SeesAlike node respelled where
  kind := hnode.kind
  text tag htag := hnode.text (by simp [htag])
  location _ _ := hnode.location_eq
  reading _ name _ _ :=
    findStatement_eq_of_respelled hnode.children (Text.lowerChars name.toList)

/-- No rule of either sort tells one spelling from another: the reports of a
walk and its counts are the same. -/
theorem walk_ignores_spelling (rules : RuleSet) (file : String)
    {nodes respelled : List Node}
    (hnodes : List.Forall₂ Node.Respelled nodes respelled)
    (sink : List Violation) :
    walkNodes rules file respelled sink = walkNodes rules file nodes sink :=
  walkNodes_eq_of_seesAlike (hnodes.imp fun _ _ hnode => hnode.seesAlike rules)
    file sink

namespace SpellingWitness

/-- A number, a text, a presence, and an anchor with its countermand, all of one
element. -/
def rules : RuleSet where
  elementRules :=
    [{ id := "AvoidLongSessions"
       clauses :=
         [.of .sessionState "timeout" (.integer (.maxValue 15)),
          .of .sessionState "mode"
            (.ofStringPolicy (.mandatoryValue "ΛΟΓΟΣ-A")),
          .of .sessionState "cookieless" .presence] }]
  compoundRules :=
    [{ id := "AvoidSharedSessions"
       anchor := .of .sessionState "mode" ["λόγος-a", "λογος-a"]
       countermand := .of .sessionState "timeout" "15" }]

def sessionWith (mode timeout modeValue timeoutValue : String) : Node :=
  { Node.element .sessionState ⟨⟨3, 5⟩, ⟨3, 60⟩⟩ with
    children :=
      [{ kind := .tagName, text := "sessionState", span := ⟨⟨3, 6⟩, ⟨3, 18⟩⟩ },
       Node.statement mode modeValue Span.nowhere Span.nowhere,
       Node.statement timeout timeoutValue Span.nowhere Span.nowhere] }

def session : Node := sessionWith "mode" "timeout" "\"ΛΟΓΟΣ-a\"" "'020'"

/-- The same, with a no-break space and line ends among the blanks. -/
def otherSession : Node :=
  sessionWith "MODE" "timeOut" "'\u00a0ΛΟΓΟΣ-A\n'" "\"\r\n 020\t\""

theorem respelled_session : session.Respelled otherSession where
  kind := rfl
  span := rfl
  text _ := rfl
  children := by
    have hmode : RespelledValue "\"ΛΟΓΟΣ-a\"" "'\u00a0ΛΟΓΟΣ-A\n'" :=
      .quoted '"' '\'' "ΛΟΓΟΣ-a".toList "ΛΟΓΟΣ-A".toList ['\u00a0']
        ['\n'] rfl rfl (List.all_eq_true.mp (by decide))
        (List.all_eq_true.mp (by decide)) (by decide)
    have htimeout : RespelledValue "'020'" "\"\r\n 020\t\"" :=
      .quoted '\'' '"' "020".toList "020".toList ['\r', '\n', ' ']
        ['\t'] rfl rfl (List.all_eq_true.mp (by decide))
        (List.all_eq_true.mp (by decide)) rfl
    refine .cons ⟨rfl, rfl, fun hkind => ?_⟩
      (.cons ⟨rfl, rfl, fun _ => .both ?_ hmode⟩
        (.cons ⟨rfl, rfl, fun _ => .both ?_ htimeout⟩ .nil))
    · contradiction
    · decide
    · decide

theorem sessions_reported_alike :
    List.Forall₂ Node.Respelled [session] [otherSession] ∧
      walkNodes rules "web.config" [otherSession] [] =
        walkNodes rules "web.config" [session] [] := by
  have hnodes : List.Forall₂ Node.Respelled [session] [otherSession] :=
    .cons respelled_session .nil
  exact ⟨hnodes, walk_ignores_spelling rules "web.config" hnodes []⟩

example : (walkNodes rules "web.config" [session] []).2 = ⟨1, 2, 0⟩ := by
  decide +kernel

end SpellingWitness

end WebConfigAudit
