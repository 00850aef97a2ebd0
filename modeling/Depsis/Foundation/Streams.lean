import Mathlib.Data.List.Basic

/-! Byte streams as a system call sees them: a peer's bytes arrive in arbitrary
pieces between interruptions and failures, and a write may break off in the
middle. Every kernel answer is taken from a script.
-/
namespace Depsis.Foundation.Streams

variable {Error : Type*}

/-- What the next `read` finds. An exhausted script is the end of the stream, and
so is an empty piece. -/
inductive Arrival (Error : Type*) where
  | data (bytes : List UInt8)
  | interrupted
  | failed (error : Error)

inductive Reading (Error : Type*) where
  | bytes (chunk : List UInt8)
  | interrupted
  | failed (error : Error)

/-- One `read` into a window; what does not fit stays for the next one. -/
def read (window : Nat) : List (Arrival Error) → Reading Error × List (Arrival Error)
  | [] => (.bytes [],[])
  | .interrupted::rest => (.interrupted,rest)
  | .failed error::rest => (.failed error,rest)
  | .data bytes::rest =>
    if bytes.length ≤ window then (.bytes bytes,rest)
    else (.bytes (bytes.take window),.data (bytes.drop window)::rest)

def received : List (Arrival Error) → List UInt8
  | [] => []
  | .data bytes::rest => bytes ++ received rest
  | .interrupted::rest | .failed _::rest => received rest

def weight : List (Arrival Error) → Nat
  | [] => 0
  | .data bytes::rest => bytes.length + 1 + weight rest
  | .interrupted::rest | .failed _::rest => 1 + weight rest

def Reading.chunk : Reading Error → List UInt8
  | .bytes chunk => chunk
  | .interrupted | .failed _ => []

theorem read_received (window : Nat) (arrivals : List (Arrival Error)) :
    received arrivals = (read window arrivals).1.chunk ++ received (read window arrivals).2 := by
  cases arrivals with
  | nil => rfl
  | cons arrival rest =>
    cases arrival with
    | interrupted => rfl
    | failed error => rfl
    | data bytes =>
      by_cases fits : bytes.length ≤ window
      · simp [read,received,Reading.chunk,fits]
      · simp [read,received,Reading.chunk,fits,← List.append_assoc]

theorem read_chunk_length (window : Nat) (arrivals : List (Arrival Error)) :
    (read window arrivals).1.chunk.length ≤ window := by
  cases arrivals with
  | nil => exact Nat.zero_le _
  | cons arrival rest =>
    cases arrival with
    | interrupted => exact Nat.zero_le _
    | failed error => exact Nat.zero_le _
    | data bytes =>
      by_cases fits : bytes.length ≤ window
      · simp [read,Reading.chunk,fits]
      · simp only [read,Reading.chunk,fits,if_false,List.length_take]
        omega

theorem read_weight {window : Nat} (room : 0 < window) {arrivals : List (Arrival Error)}
    (more : (read window arrivals).1 ≠ .bytes []) :
    weight (read window arrivals).2 < weight arrivals := by
  cases arrivals with
  | nil => exact absurd rfl more
  | cons arrival rest =>
    cases arrival with
    | interrupted => simp [read,weight]
    | failed error => simp [read,weight]
    | data bytes =>
      by_cases fits : bytes.length ≤ window
      · simp only [read,fits,if_true,weight]
        omega
      · simp only [read,fits,if_false,weight,List.length_drop]
        omega

inductive WriteOutcome (Error : Type*) where
  | whole
  | broken (count : Nat) (error : Error)

/-- Where bytes are appended, and the script of the writes to come; an exhausted
script succeeds. -/
structure Sink (Error : Type*) where
  content : List UInt8
  outcomes : List (WriteOutcome Error)

/-- `write_all`; writing nothing asks nothing of the kernel. -/
def Sink.writeAll (data : List UInt8) (sink : Sink Error) : Option Error × Sink Error :=
  if data = [] then (none,sink)
  else match sink.outcomes with
  | [] => (none,{ sink with content := sink.content ++ data })
  | .whole::rest => (none,⟨sink.content ++ data,rest⟩)
  | .broken count error::rest => (some error,⟨sink.content ++ data.take count,rest⟩)

theorem writeAll_whole {data : List UInt8} {sink : Sink Error} (wrote : (sink.writeAll data).1 = none) :
    (sink.writeAll data).2.content = sink.content ++ data := by
  unfold Sink.writeAll at wrote ⊢
  split at wrote
  next empty => simp [empty]
  next more =>
    rw [if_neg more]
    split at wrote
    next => rfl
    next => rfl
    next => cases wrote

theorem writeAll_extends (data : List UInt8) (sink : Sink Error) :
    sink.content <+: (sink.writeAll data).2.content := by
  unfold Sink.writeAll
  split
  next => exact List.prefix_rfl
  next => split <;> exact List.prefix_append _ _

end Depsis.Foundation.Streams
