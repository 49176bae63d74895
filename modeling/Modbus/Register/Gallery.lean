import Modbus.Register.Image

/-!
# Galleries of images

Several process images over one memory, numbered from zero. A gallery starts with one empty image
and grows by copies. Every access goes through one of the images and is seen through all images that
share the bank.
-/

namespace Modbus

/-- Process images and the memory of their banks. -/
structure Gallery where
  images : List ProcessImage := [{}]
  memory : Memory := {}

namespace Gallery

variable (g : Gallery) (index : Nat)

/-- An image; one that is not there has no units. -/
def image : ProcessImage := (g.images[index]?).getD {}

/-- Binds a unit of an image to a new bank. -/
def insert (unit : UnitId) (bank : Bank) : Except RegisterError Gallery := do
  let (image, memory) ← (g.image index).insert unit bank g.memory
  return ⟨g.images.set index image, memory⟩

/-- The words in a range of registers, as an image sees them. -/
def read (unit : UnitId) (address : Address) (count : Nat) : Except RegisterError (List Word) :=
  (g.image index).read unit address count g.memory

/-- Writes words into registers through an image. -/
def write (unit : UnitId) (address : Address) (values : List Word) :
    Except RegisterError Gallery := do
  let memory ← (g.image index).write unit address values g.memory
  return { g with memory }

/-- Breaks off an access to a bank through an image. -/
def poison (unit : UnitId) : Except RegisterError Gallery := do
  let memory ← (g.image index).poison unit g.memory
  return { g with memory }

/-- Appends a copy of an image, which shares its banks. -/
def clone : Gallery := { g with images := g.images ++ [g.image index] }

end Gallery

end Modbus
