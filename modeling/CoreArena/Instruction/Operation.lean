/-! The operations of the machine and the numbers that stand for them.

An operation number takes four bits. Numbers that no operation has read as `invalid`, which
ends whoever executes it. -/

namespace CoreArena

inductive Operation where
  | data
  | noop
  | jump
  | skipIfEqual
  | skipIfGreater
  | skipIfLower
  | write
  | copy
  | move
  | add
  | subtract
  | multiply
  | invalid
  deriving DecidableEq, Repr, Inhabited

inductive OperandRole where
  /-- The resolved number itself is the input. -/
  | value
  /-- The resolved number is an offset from the executing instruction. -/
  | address
  deriving DecidableEq, Repr

namespace Operation

/-- Every operation, storage and idling first, then control flow, memory and arithmetic. -/
def all : List Operation :=
  [data, noop, jump, skipIfEqual, skipIfGreater, skipIfLower, write, copy, move, add, subtract,
    multiply, invalid]

/-- The operation number. Stored programs depend on it. -/
def number : Operation → Nat
  | data => 0
  | jump => 1
  | write => 2
  | add => 3
  | subtract => 4
  | copy => 5
  | move => 6
  | skipIfEqual => 7
  | noop => 8
  | multiply => 9
  | skipIfGreater => 10
  | skipIfLower => 11
  | invalid => 15

def ofNumber? : Nat → Option Operation
  | 0 => some data
  | 1 => some jump
  | 2 => some write
  | 3 => some add
  | 4 => some subtract
  | 5 => some copy
  | 6 => some move
  | 7 => some skipIfEqual
  | 8 => some noop
  | 9 => some multiply
  | 10 => some skipIfGreater
  | 11 => some skipIfLower
  | 15 => some invalid
  | _ => none

/-- The operation of the low four bits of a number; unassigned ones are `invalid`. -/
def ofNibble (n : Nat) : Operation :=
  (ofNumber? (n % 16)).getD invalid

def mnemonic : Operation → String
  | data => "DATA"
  | noop => "NOOP"
  | jump => "JUMP"
  | skipIfEqual => "SKIP_IF_EQUAL"
  | skipIfGreater => "SKIP_IF_GREATER"
  | skipIfLower => "SKIP_IF_LOWER"
  | write => "WRITE"
  | copy => "COPY"
  | move => "MOVE"
  | add => "ADD"
  | subtract => "SUBTRACT"
  | multiply => "MULTIPLY"
  | invalid => "INVALID"

def roles : Operation → List OperandRole
  | noop | invalid => []
  | data | jump => [.value]
  | skipIfEqual | skipIfGreater | skipIfLower => [.value, .value]
  | write | add | subtract | multiply => [.value, .address]
  | copy | move => [.address, .address]

def arity (op : Operation) : Nat :=
  op.roles.length

/-- Whether executing the operation leaves the executing pointer alive. -/
def isExecutable : Operation → Bool
  | data | invalid => false
  | _ => true

theorem ofNibble_number (op : Operation) : ofNibble op.number = op := by
  cases op <;> rfl

theorem number_lt (op : Operation) : op.number < 16 := by
  cases op <;> decide

end Operation

end CoreArena
