import Candela.Environment.InPlace
import Candela.Environment.Reading
import Candela.Environment.Strict
import Candela.Environment.Table
import Candela.Frame.Image
import Candela.Frame.Pacing
import Candela.Frame.State
import Candela.Frame.Statistics
import Candela.Main
import Candela.Proofs.Shader.Typing
import Candela.Shader.Source
import Candela.Text.Checksum
import Candela.Proofs.Bvh.Division
import Candela.Proofs.Bvh.Hierarchy
import Candela.Bvh.InPlace
import Candela.Proofs.Bvh.InPlace
import Candela.Proofs.Shader.Arguments
import Candela.Proofs.Shader.Sampling
import Candela.Proofs.Shader.Comments
import Candela.Proofs.Bvh.Search
import Candela.Proofs.Single
import Candela.Proofs.Bvh.Packed
import Candela.Proofs.Bvh.Nearest
import Candela.Proofs.Bvh.Trace
import Candela.Proofs.Bvh.Below
import Candela.Bvh.Record
import Candela.Proofs.Arena
import Candela.Proofs.Bvh.Missed
import Candela.Proofs.Bvh.Parts
import Candela.Proofs.Bvh.Words
import Candela.Proofs.Bvh.Packing
import Candela.Proofs.Material
import Candela.Proofs.Result
import Candela.Proofs.Scene.Shapes
import Candela.Proofs.Scene.Stages
import Candela.Proofs.Lighting.Draft
import Candela.Proofs.Scene.Instances
import Candela.Proofs.Lighting.Order
import Candela.Proofs.Lighting.Blocks
import Candela.Proofs.Scene.Lights
import Candela.Proofs.Scene.Faces
import Candela.Proofs.Shader.Braces
import Candela.Proofs.Text.Words
import Candela.Proofs.Shader.Functions
import Candela.Proofs.Shader.Tables
import Candela.Proofs.Environment.Pyramid
import Candela.Proofs.Environment.Sampling
import Candela.Proofs.Frame.Device
import Candela.Proofs.Frame.Layout
import Candela.Proofs.Frame.Threads
import Candela.Proofs.Frame.Conservation
import Candela.Material.Ledger
import Candela.Proofs.Material.Compiled
import Candela.Proofs.Material.Ledger
import Candela.Proofs.Graph.Emission
import Candela.Proofs.Scene.Emission
import Candela.Proofs.Mesh.Files
import Candela.Proofs.Shader.Defects
import Candela.Proofs.Shader.Precedence
import Candela.Proofs.Shader.Unreached
import Candela.Proofs.Shader.Fields
import Candela.Proofs.Geometry.Box
import Candela.Proofs.Graph.Links
import Candela.Proofs.Texture.Slots
import Candela.Proofs.Scene.Bounds
import Candela.Proofs.Single.Nearest
import Candela.Proofs.Single.Rounding
import Candela.Proofs.Single.Sign
import Candela.Proofs.Bvh.Large
import Candela.Bvh.Device
import Candela.Proofs.Bvh.Stack
import Candela.Proofs.Single.Correct
import Candela.Proofs.Single.Value
import Candela.Proofs.Environment.Bright
import Candela.Proofs.Environment.Density
import Candela.Proofs.Environment.InPlace
import Candela.Proofs.Environment.Sums
import Candela.Proofs.Environment.Reading
import Candela.Lighting.InPlace
import Candela.Proofs.Single.Share
import Candela.Proofs.Lighting.Distribution
import Candela.Proofs.Lighting.InPlace
import Candela.Proofs.Geometry.Exact
import Candela.Proofs.Geometry.Slab
import Candela.Proofs.Geometry.Transform
import Candela.Proofs.Single.Signed
import Candela.Proofs.Geometry.Rounded
import Candela.Proofs.Scene.Extents
import Candela.Proofs.Frame.Grid
import Candela.Proofs.Frame.Footprint
import Candela.Proofs.Single.Bits
import Candela.Proofs.Binary.Nearest
import Candela.Proofs.Decimal.Shortest
import Candela.Proofs.Decimal.Reading
import Candela.Proofs.Shader.Literals
import Candela.Proofs.Shader.Stops
import Candela.Proofs.Shader.Ramp
import Candela.Proofs.Shader.RampOrder
import Candela.Proofs.Settings
import Candela.Proofs.Frame.Run
import Candela.Proofs.Frame.Averages
import Candela.Proofs.Arena.Splitting
import Candela.Proofs.Shader.Identifiers
import Candela.Proofs.Scene.Conversion
