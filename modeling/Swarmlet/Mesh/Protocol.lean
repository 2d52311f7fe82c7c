import Mathlib.Data.Rat.Defs
import Mathlib.Data.List.Basic

/-!
# The wire contract of the certification mesh

What the certification coordinator sends to a node and what it gets back. A node signs the
*comparable projection* of its results: the graded answer of each instance, without the raw output
and the timings, which are not reproducible between machines.

How an answer is read out of a model's output, the canonical text of a result and the verification
of a signature are functions of the host; nothing is assumed of them here.
-/

namespace Swarmlet.Mesh

def REDUNDANT_EVERY : ℕ := 20

def REDUNDANT_COPIES : ℕ := 3

structure EvalInstance where
  id : String
deriving DecidableEq

structure EvalResult where
  instanceId : String
  output : String
  passed : Bool
  score : ℚ
deriving DecidableEq

structure ComparableResult (A : Type) where
  instanceId : String
  answer : A
  passed : Bool
  score : ℚ
deriving DecidableEq

structure ExecuteResponse where
  nodeId : String
  requestId : String
  results : List EvalResult
  signature : String
deriving DecidableEq

structure Projection (A : Type) where
  nodeId : String
  requestId : String
  results : List (ComparableResult A)
deriving DecidableEq

structure Host (A : Type) where
  /-- Parsed JSON when extractable, else the trimmed text. -/
  canonicalAnswer : String → A
  canonicalize : ComparableResult A → String
  /-- Verification under the public key of a node; it throws on a malformed signature. -/
  verify : String → Projection A → String → Except String Bool

variable {A : Type}

def comparableOf (h : Host A) (r : EvalResult) : ComparableResult A where
  instanceId := r.instanceId
  answer := h.canonicalAnswer r.output
  passed := r.passed
  score := r.score

def executeComparable (h : Host A) (r : ExecuteResponse) : Projection A where
  nodeId := r.nodeId
  requestId := r.requestId
  results := r.results.map (comparableOf h)

def verifyExecuteResponse (h : Host A) (nodeId : String) (r : ExecuteResponse) :
    Except String Bool :=
  h.verify nodeId (executeComparable h r) r.signature

/-- A host in which a payload verifies under the key of the node it names. -/
def plainHost : Host String where
  canonicalAnswer := id
  canonicalize r := r.answer
  verify nodeId payload _ := .ok (payload.nodeId = nodeId)

end Swarmlet.Mesh
