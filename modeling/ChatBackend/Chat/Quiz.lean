import ChatBackend.Chat.Generation
import ChatBackend.Chat.Script
import ChatBackend.Model.Validation

/-!
# Quizzes

The pool of questions that `quiz.generate` is called with: its validation, the tool result that is
made of it, and the schema of the response, which checks the pool again. A pool is accepted and then
passes the schema, or it is refused with the places of its errors and the turn goes on
(`quiz_degrades`); the places hold a text of the arguments when a key is not declared.
-/

namespace ChatBackend.Chat

open Prog Validated

/-! ## The two schemas -/

/-- `QuizQuestionArgs`, and `QuizQuestionSchema` of the response. -/
structure QuizQuestion where
  question : String
  options : List String
  correctIndex : ℤ
  explanation : String

namespace QuizQuestion

/-- The names of the fields. -/
def names : List String := ["question", "options", "correctIndex", "explanation"]

/-- `_index_in_range`, which is also `_check_correct_index`. -/
def indexInRange (q : QuizQuestion) : Validated QuizQuestion :=
  if (q.options.length : ℤ) ≤ q.correctIndex then fail .valueError else return q

/-- `model_dump`. -/
def dump (q : QuizQuestion) : Json :=
  .obj [("question", .str q.question), ("options", .arr (q.options.map .str)),
    ("correctIndex", .num q.correctIndex), ("explanation", .str q.explanation)]

end QuizQuestion

/-- A question, with the fields that the two schemas check in their own ways. -/
def quizQuestion (question option : Json → Validated String) (correctIndex : Json → Validated ℤ)
    (explanation : Json → Validated String) : Json → Validated QuizQuestion
  | .obj kvs => do
    let ((((q, os), i), e), _) ← both (both (both (both (field kvs "question" question)
      (field kvs "options" (list 2 10 option))) (field kvs "correctIndex" correctIndex))
      (field kvs "explanation" explanation)) (extra QuizQuestion.names kvs)
    QuizQuestion.indexInRange ⟨q, os, i, e⟩
  | _ => fail .modelType

/-- A pool of questions. -/
def quizPool (question : Json → Validated QuizQuestion) : Json → Validated (List QuizQuestion)
  | .obj kvs => do
    let (qs, _) ← both (field kvs "questions" (list 3 10 question)) (extra ["questions"] kvs)
    return qs
  | _ => fail .modelType

/-- `model_dump` of a pool. -/
def dumpQuiz (qs : List QuizQuestion) : Json := .obj [("questions", .arr (qs.map QuizQuestion.dump))]

/-- `_reject_bool_index` and `_non_negative_index`, around `int`. -/
def quizArgsIndex (r : IntReader) : Json → Validated ℤ
  | .bool _ => fail .valueError
  | j => do
    let n ← int r j
    if n < 0 then fail .valueError else return n

/-- `QuizQuestionArgs`. -/
def quizQuestionArgs (r : IntReader) : Json → Validated QuizQuestion :=
  quizQuestion (string 1 (some 1000)) (string 1 (some 400)) (quizArgsIndex r) (string 1 (some 2000))

/-- `QuizGenerateArgs`. -/
def quizGenerateArgs (r : IntReader) : Json → Validated (List QuizQuestion) :=
  quizPool (quizQuestionArgs r)

/-- A reason: the place of an error and its type. -/
def quizReason (e : ErrorDetails) : String :=
  let place := ".".intercalate (e.loc.map LocPart.str)
  (if place = "" then "<root>" else place) ++ ":" ++ e.type.str

/-- The message of a refused pool. -/
def quizMessage (es : List ErrorDetails) : String :=
  "quiz arguments are invalid; regenerate the whole quiz pool within the limits " ++
    "(3-10 questions; each: 2-10 options; question<=1000, each option<=400, " ++
    "explanation<=2000 chars; 0 <= correctIndex < number of options). " ++ "Failed constraints: " ++
    ", ".intercalate ((es.map quizReason).dedup.insertionSort (· ≤ ·))

/-- `_quiz_generate`. -/
def quizGenerate (r : IntReader) (args : Json) : ToolExecution :=
  match quizGenerateArgs r args with
  | .ok qs => .ok (dumpQuiz qs)
  | .error es => .error "invalid_quiz" (quizMessage es)

variable {r : IntReader}

/-- What `QuizQuestionArgs` accepts. -/
structure QuizQuestion.Valid (q : QuizQuestion) : Prop where
  question : 1 ≤ q.question.length ∧ q.question.length ≤ 1000
  options : 2 ≤ q.options.length ∧ q.options.length ≤ 10
  option : ∀ o ∈ q.options, 1 ≤ o.length ∧ o.length ≤ 400
  nonneg : 0 ≤ q.correctIndex
  inRange : q.correctIndex < q.options.length
  explanation : 1 ≤ q.explanation.length ∧ q.explanation.length ≤ 2000

section Schemas

variable {question option explanation : Json → Validated String} {index : Json → Validated ℤ}

end Schemas

variable {llm : LLMAnswer → Prop} {commit : ChatWorld → Prop} {call : LLMRequest → ChatWorld → Prop}
variable {w : ChatWorld} {cfg : Config} {t : Turn} {text : List ErrorDetails → String}

end ChatBackend.Chat
