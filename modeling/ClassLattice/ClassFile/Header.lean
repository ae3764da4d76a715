import ClassLattice.ClassFile.ConstantPool

/-!
# Headers of class files

The front part of a class file, up to the list of interfaces.  It says what the type is called and
what it extends; nothing behind it is read.  Names are looked up as soon as their indices are
read, so a wrong index is reported before a later lack of bytes.
-/

set_option autoImplicit false

namespace ClassLattice

/-- The front part of a class file. -/
structure ClassHeader where
  minorVersion : UInt16
  majorVersion : UInt16
  accessFlags : UInt16
  thisClass : String
  superClass : Option String
  interfaces : List String
  deriving DecidableEq

namespace ClassHeader

open ByteReader

/-- The number that every class file begins with. -/
def magic : UInt32 := 0xCAFEBABE

/-- Whether the type is an interface: the access flag `0x0200`. -/
def isInterface (header : ClassHeader) : Bool := header.accessFlags &&& 0x0200 != 0

/-- Reads an index into the pool, which is to lead to the name of a class. -/
def readClassName (pool : ConstantPool) : ByteReader String := do
  let index ← u2
  pool.className index

/-- Reads an index and looks up the class name it stands for; zero stands for none. -/
def readSuperClass (pool : ConstantPool) : ByteReader (Option String) := do
  let index ← u2
  if index = 0 then return none
  let name ← pool.className index
  return some name

/-- Reads a number of class names, to be put behind those already read, which are held latest
first. -/
def readClassNames (pool : ConstantPool) : Nat → List String → ByteReader (List String)
  | 0, done => return done.reverse
  | count + 1, done => do
    let name ← readClassName pool
    readClassNames pool count (name :: done)

/-- Reads a header. -/
def read : ByteReader ClassHeader := do
  let found ← u4
  if found ≠ magic then throw (.wrongMagic found)
  let minorVersion ← u2
  let majorVersion ← u2
  let pool ← ConstantPool.read
  let accessFlags ← u2
  let thisClass ← readClassName pool
  let superClass ← readSuperClass pool
  let count ← u2
  let interfaces ← readClassNames pool count.toNat []
  return { minorVersion, majorVersion, accessFlags, thisClass, superClass, interfaces }

/-- The header at the front of the bytes of a class file. -/
def parse (bytes : List UInt8) : Except ClassFileError ClassHeader :=
  (·.1) <$> read bytes

end ClassHeader

end ClassLattice
