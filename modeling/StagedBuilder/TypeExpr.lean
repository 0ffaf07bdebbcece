import StagedBuilder.Text.Blank

namespace StagedBuilder

open Text

inductive TypeExpr
  | node (base : String) (args : List TypeExpr)
  deriving Inhabited, Repr

inductive TypeFault
  | unmatchedClose
  | unclosedOpen
  | textAfterClose
  | missingBase
  | emptyArgument
  deriving DecidableEq

namespace TypeFault

def message : TypeFault → String
  | .unmatchedClose => "unmatched '>'"
  | .unclosedOpen => "unclosed '<'"
  | .textAfterClose => "text follows the closing '>'"
  | .missingBase => "missing base type before '<'"
  | .emptyArgument => "empty type argument"

end TypeFault

structure MalformedType where
  text : String
  fault : TypeFault
  deriving DecidableEq

namespace TypeExpr

mutual

def decEq : (s t : TypeExpr) → Decidable (s = t)
  | .node b as, .node c bs =>
    match instDecidableEqString b c, decEqAll as bs with
    | isTrue hb, isTrue has => isTrue (by rw [hb, has])
    | isFalse hb, _ => isFalse (by simp [hb])
    | _, isFalse has => isFalse (by simp [has])

def decEqAll : (ss ts : List TypeExpr) → Decidable (ss = ts)
  | [], [] => isTrue rfl
  | [], _ :: _ => isFalse (by simp)
  | _ :: _, [] => isFalse (by simp)
  | s :: ss, t :: ts =>
    match decEq s t, decEqAll ss ts with
    | isTrue h, isTrue hs => isTrue (by rw [h, hs])
    | isFalse h, _ => isFalse (by simp [h])
    | _, isFalse hs => isFalse (by simp [hs])

end

instance : DecidableEq TypeExpr := decEq

def leaf (base : String) : TypeExpr := .node base []

def base : TypeExpr → String
  | .node base _ => base

def args : TypeExpr → List TypeExpr
  | .node _ args => args

def isLeaf (t : TypeExpr) : Bool := t.args.isEmpty

def bracketFault? : Nat → List Char → Option TypeFault
  | 0, [] => none
  | _ + 1, [] => some .unclosedOpen
  | depth, '<' :: cs => bracketFault? (depth + 1) cs
  | 0, '>' :: _ => some .unmatchedClose
  | depth + 1, '>' :: cs => bracketFault? depth cs
  | depth, _ :: cs => bracketFault? depth cs

def splitArguments : Nat → List Char → List (List Char)
  | _, [] => [[]]
  | depth, c :: cs =>
    if c = ',' ∧ depth = 0 then [] :: splitArguments depth cs
    else
      let inside := if c = '<' then depth + 1 else if c = '>' then depth - 1 else depth
      match splitArguments inside cs with
      | [] => [[c]]
      | a :: as => (c :: a) :: as

theorem length_of_mem_splitArguments {depth : Nat} {s a : List Char}
    (h : a ∈ splitArguments depth s) : a.length ≤ s.length := by
  induction s generalizing depth a with
  | nil => simp_all [splitArguments]
  | cons c cs ih =>
    simp only [splitArguments] at h
    split at h
    · rcases List.mem_cons.1 h with rfl | h
      · simp
      · exact Nat.le_succ_of_le (ih h)
    · split at h
      · simp_all
      · rename_i b bs hs
        rcases List.mem_cons.1 h with rfl | h
        · simpa using ih (hs ▸ List.mem_cons_self)
        · exact Nat.le_succ_of_le (ih (hs ▸ List.mem_cons_of_mem _ h))

theorem length_trim_le (s : List Char) : (trim s).length ≤ s.length := by
  have h := (List.dropWhile_suffix isBlank (l := (trimStart s).reverse)).length_le
  have h' := (List.dropWhile_suffix isBlank (l := s)).length_le
  simp only [trim, trimEnd, trimStart, List.length_reverse] at *
  omega

/-- The base of a trimmed text and the texts of its arguments. They stand between the first opening
bracket and the last character, which closes it. -/
def divide (text : List Char) : Except TypeFault (List Char × List (List Char)) :=
  match bracketFault? 0 text, text.dropWhile (· ≠ '<') with
  | some f, _ => .error f
  | none, [] => .ok (text, [])
  | none, _ :: rest =>
    if rest.getLast? ≠ some '>' then .error .textAfterClose
    else if trim (text.takeWhile (· ≠ '<')) = [] then .error .missingBase
    else .ok (trim (text.takeWhile (· ≠ '<')), splitArguments 0 rest.dropLast)

theorem length_lt_of_divide {text base a : List Char} {args : List (List Char)}
    (h : divide text = .ok (base, args)) (ha : a ∈ args) : a.length < text.length := by
  unfold divide at h
  split at h
  · simp at h
  · simp_all
  · rename_i hrest
    split at h
    · simp at h
    · split at h
      · simp at h
      · simp only [Except.ok.injEq, Prod.mk.injEq] at h
        obtain ⟨-, rfl⟩ := h
        have h₁ := length_of_mem_splitArguments ha
        have h₂ := (hrest ▸ List.dropWhile_suffix (· ≠ '<') : _ :: _ <:+ text).length_le
        simp only [List.length_cons, List.length_dropLast] at h₁ h₂
        omega

def parseChars (s : List Char) : Except MalformedType TypeExpr :=
  match _h : divide (trim s) with
  | .error f => .error ⟨.ofList (trim s), f⟩
  | .ok (base, args) => do
    let args ← args.attach.mapM fun ⟨a, _⟩ =>
      if trim a = [] then .error ⟨.ofList (trim s), .emptyArgument⟩ else parseChars a
    .ok (.node (.ofList base) args)
termination_by s.length
decreasing_by exact Nat.lt_of_lt_of_le (length_lt_of_divide _h ‹_›) (length_trim_le s)

def parse (text : String) : Except MalformedType TypeExpr := parseChars text.toList

mutual

def renderWith (name : String → String) : TypeExpr → String
  | .node base [] => name base
  | .node base (a :: as) =>
    name base ++ "<" ++ ", ".intercalate (a.renderWith name :: renderAllWith name as) ++ ">"

def renderAllWith (name : String → String) : List TypeExpr → List String
  | [] => []
  | a :: as => a.renderWith name :: renderAllWith name as

end

def render (t : TypeExpr) : String := t.renderWith id

mutual

def preorder : TypeExpr → Nat → List (Nat × String)
  | .node base args, depth => (depth, base) :: preorderAll args (depth + 1)

def preorderAll : List TypeExpr → Nat → List (Nat × String)
  | [], _ => []
  | a :: as, depth => a.preorder depth ++ preorderAll as depth

end

def bases (t : TypeExpr) : List String := (t.preorder 0).map Prod.snd

end TypeExpr

end StagedBuilder
