import DiagnosticReport.Text.Bytes

/-!
# Outputs

Where a document goes while it is written. An output may take bytes in pieces, take none, or fail,
and it may fail to flush; `Output` says in advance what it does with the writes and flushes to
come, and keeps what it has accepted so far.

A write that was interrupted is tried again, and a write that was accepted in part goes on with
the rest. So the writing of a sequence of bytes comes to a rest in one of three ways (`Stop`):
all bytes are accepted, the output accepts none of the rest, or it fails.
-/

namespace DiagnosticReport

/-- A failure of an output. -/
structure Fault where
  /-- What the output says about it. -/
  message : String
  /-- Whether the call was merely interrupted, so that it may be tried again. -/
  interrupted : Bool := false
  deriving DecidableEq

/-- What an output does with the writes to come. -/
inductive WriteRule where
  /-- The next `budget` bytes are accepted. -/
  | accept (budget : Nat)
  /-- One call accepts nothing. -/
  | refuse
  /-- One call fails. -/
  | fail (fault : Fault)
  deriving DecidableEq

/-- Why a sequence of bytes was not accepted to its end. -/
inductive Stop where
  /-- A call accepted nothing. -/
  | refused
  /-- A call failed for good. -/
  | failed (fault : Fault)
  deriving DecidableEq

/-- How the writing of a sequence of bytes came to rest. -/
structure Sending where
  /-- The number of bytes accepted. -/
  count : Nat
  /-- Why no more were, if there were more. -/
  stop? : Option Stop
  /-- What the output does from now on. -/
  rules : List WriteRule
  deriving DecidableEq

/-- Writes `n` bytes to an output with these rules; an output without rules accepts everything. -/
def WriteRule.send : List WriteRule → Nat → Sending
  | rules, 0 => ⟨0, none, rules⟩
  | [], n => ⟨n, none, []⟩
  | .accept budget :: rules, n =>
    if n ≤ budget then ⟨n, none, .accept (budget - n) :: rules⟩
    else
      let rest := send rules (n - budget)
      { rest with count := budget + rest.count }
  | .refuse :: rules, _ => ⟨0, some .refused, rules⟩
  | .fail fault :: rules, n =>
    if fault.interrupted then send rules n else ⟨0, some (.failed fault), rules⟩

/-- No more bytes are accepted than were offered, and fewer exactly if something stopped them. -/
theorem WriteRule.send_count_le (rules : List WriteRule) (n : Nat) :
    (send rules n).count ≤ n ∧ ((send rules n).stop? = none ↔ (send rules n).count = n) := by
  fun_induction send rules n with
  | case1 | case2 | case3 | case4 | case5 | case7 => grind
  | case6 => assumption

/-- An output with its behaviour to come. -/
structure Output where
  /-- What it does with the writes to come. -/
  rules : List WriteRule := []
  /-- What the flushes to come give: a fault or success. After the last one, all succeed. -/
  flushes : List (Option Fault) := []
  /-- The bytes accepted so far. -/
  accepted : ByteArray := ByteArray.empty
  /-- The number of flushes so far, failed ones included. -/
  flushed : Nat := 0

namespace Output

/-- An output that never fails. -/
def flawless : Output := {}

/-- The bytes accepted so far, as a list. -/
def bytes (out : Output) : List UInt8 :=
  out.accepted.data.toList

/-- Writes bytes: how many were accepted, why no more were, and the output afterwards. -/
def send (out : Output) (bytes : List UInt8) : Nat × Option Stop × Output :=
  let sending := WriteRule.send out.rules bytes.length
  (sending.count, sending.stop?,
    { out with
      rules := sending.rules
      accepted := out.accepted ++ (bytes.take sending.count).toByteArray })

/-- What reaches the output is a front part of what is written, of the length that is counted. -/
theorem bytes_send (out : Output) (bytes : List UInt8) :
    (out.send bytes).2.2.bytes = out.bytes ++ bytes.take (out.send bytes).1 := by
  simp [send, Output.bytes]

/-- Writes bytes that make sense only as a whole. What has been accepted before a failure is
neither taken back nor completed later. -/
def writeWhole (out : Output) (bytes : List UInt8) : Except Fault Unit × Output :=
  match out.send bytes with
  | (_, none, out) => (.ok (), out)
  | (_, some .refused, out) => (.error ⟨"failed to write whole buffer", false⟩, out)
  | (_, some (.failed fault), out) => (.error fault, out)

/-- Flushes the output, once: a flush that was interrupted has failed. -/
def flush (out : Output) : Except Fault Unit × Output :=
  match out.flushes with
  | [] => (.ok (), { out with flushed := out.flushed + 1 })
  | none :: rest => (.ok (), { out with flushes := rest, flushed := out.flushed + 1 })
  | some fault :: rest =>
    (.error fault, { out with flushes := rest, flushed := out.flushed + 1 })

/-- Writes texts, each as a whole, and flushes. The first failure ends it. -/
def deliver : List String → Output → Except Fault Unit × Output
  | [], out => out.flush
  | text :: texts, out =>
    match out.writeWhole (Text.utf8 text) with
    | (.ok (), out) => deliver texts out
    | (.error fault, out) => (.error fault, out)

end Output

end DiagnosticReport
