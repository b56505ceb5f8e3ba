import TypeSketch.Main
import TypeSketch.Proofs.Admits
import TypeSketch.Proofs.Agreement
import TypeSketch.Proofs.AllRequired
import TypeSketch.Proofs.Allocation
import TypeSketch.Proofs.ClassKeys
import TypeSketch.Proofs.Comments
import TypeSketch.Proofs.DistinctPaths
import TypeSketch.Proofs.EmptyArrays
import TypeSketch.Proofs.Equality
import TypeSketch.Proofs.ExitCodes
import TypeSketch.Proofs.Imports
import TypeSketch.Proofs.Interface.Grammar
import TypeSketch.Proofs.Interface.Members
import TypeSketch.Proofs.Lossless
import TypeSketch.Proofs.NameSearch
import TypeSketch.Proofs.Namespaces
import TypeSketch.Proofs.OneArray
import TypeSketch.Proofs.OutputFile
import TypeSketch.Proofs.ReadBack
import TypeSketch.Proofs.Readers
import TypeSketch.Proofs.Refusals
import TypeSketch.Proofs.Returns
import TypeSketch.Proofs.ShapeTable
