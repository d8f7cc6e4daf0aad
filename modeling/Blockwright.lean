import Blockwright.Command.Disk
import Blockwright.Main
import Blockwright.Proofs.Agreement
import Blockwright.Proofs.Calls
import Blockwright.Proofs.Canonical
import Blockwright.Proofs.Forms
import Blockwright.Proofs.Generation
import Blockwright.Proofs.Insertion
import Blockwright.Proofs.Joining
import Blockwright.Proofs.Layout
import Blockwright.Proofs.Nesting
import Blockwright.Proofs.Overriding
import Blockwright.Proofs.Packing
import Blockwright.Proofs.Reloading
import Blockwright.Proofs.Supplies
import Blockwright.Proofs.Extensions
import Blockwright.Proofs.Footprint
import Blockwright.Proofs.Rereading
import Blockwright.Proofs.RuleOrder
import Blockwright.Proofs.Stack
import Blockwright.Proofs.Counting
import Blockwright.Proofs.Conservation
import Blockwright.Proofs.Conditionals
import Blockwright.Proofs.Warnings
import Blockwright.Proofs.Slots
import Blockwright.Proofs.Canvas
import Blockwright.Proofs.Literals
import Blockwright.Proofs.Kinds
import Blockwright.Proofs.Scanning
