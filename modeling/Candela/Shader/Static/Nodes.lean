/-!
# Compute functions

The compute functions of the kernels that are not generated.
-/

namespace Candela.Shader.Static

/-- The text. -/
def nodes : String := "// Native node kernels. Structs and enum constants are generated in the header.

// Outputs

fn OutputMaterial_compute(n: ptr<function, OutputMaterial>, shading: ptr<function, ShadingContext>) \x7b
    (*shading).material = (*n).surface;
\x7d

fn OutputWorld_compute(n: ptr<function, OutputWorld>, shading: ptr<function, ShadingContext>) \x7b
    (*shading).material = (*n).surface;
\x7d

fn OutputLight_compute(n: ptr<function, OutputLight>, shading: ptr<function, ShadingContext>) \x7b
    (*shading).material = (*n).surface;
\x7d

// Converters

fn Value_compute(n: ptr<function, Value>, shading: ptr<function, ShadingContext>) \x7b\x7d

fn Rgb_compute(n: ptr<function, Rgb>, shading: ptr<function, ShadingContext>) \x7b\x7d

fn safe_divide(a: f32, b: f32) -> f32 \x7b
    return select(0.0, a / b, b != 0.0);
\x7d

fn safe_modulo(a: f32, b: f32) -> f32 \x7b
    return select(0.0, a - b * trunc(a / b), b != 0.0);
\x7d

fn wrap_value(v: f32, hi: f32, lo: f32) -> f32 \x7b
    let range = hi - lo;
    return select(lo, v - range * floor((v - lo) / range), range != 0.0);
\x7d

fn pingpong(a: f32, b: f32) -> f32 \x7b
    return select(0.0, abs(fract((a - b) / (b * 2.0)) * b * 2.0 - b), b != 0.0);
\x7d

fn smooth_min(a: f32, b: f32, k: f32) -> f32 \x7b
    if k != 0.0 \x7b
        let h = max(k - abs(a - b), 0.0) / k;
        return min(a, b) - h * h * h * k / 6.0;
    \x7d
    return min(a, b);
\x7d

fn math_op(op: u32, a: f32, b: f32, c: f32) -> f32 \x7b
    switch op \x7b
        case k_Math_OPERATION_ADD: \x7b return a + b; \x7d
        case k_Math_OPERATION_SUBTRACT: \x7b return a - b; \x7d
        case k_Math_OPERATION_MULTIPLY: \x7b return a * b; \x7d
        case k_Math_OPERATION_DIVIDE: \x7b return safe_divide(a, b); \x7d
        case k_Math_OPERATION_MULTIPLY_ADD: \x7b return a * b + c; \x7d
        case k_Math_OPERATION_POWER: \x7b
            if a >= 0.0 \x7b
                return pow(a, b);
            \x7d
            if fract(b) == 0.0 \x7b
                let r = pow(-a, b);
                return select(r, -r, (i32(b) & 1) != 0);
            \x7d
            return 0.0;
        \x7d
        case k_Math_OPERATION_LOGARITHM: \x7b
            return select(0.0, log(a) / log(b), a > 0.0 && b > 0.0 && b != 1.0);
        \x7d
        case k_Math_OPERATION_SQRT: \x7b return select(0.0, sqrt(a), a > 0.0); \x7d
        case k_Math_OPERATION_INVERSE_SQRT: \x7b return select(0.0, inverseSqrt(a), a > 0.0); \x7d
        case k_Math_OPERATION_ABSOLUTE: \x7b return abs(a); \x7d
        case k_Math_OPERATION_EXPONENT: \x7b return exp(a); \x7d
        case k_Math_OPERATION_MINIMUM: \x7b return min(a, b); \x7d
        case k_Math_OPERATION_MAXIMUM: \x7b return max(a, b); \x7d
        case k_Math_OPERATION_LESS_THAN: \x7b return select(0.0, 1.0, a < b); \x7d
        case k_Math_OPERATION_GREATER_THAN: \x7b return select(0.0, 1.0, a > b); \x7d
        case k_Math_OPERATION_SIGN: \x7b return sign(a); \x7d
        case k_Math_OPERATION_COMPARE: \x7b return select(0.0, 1.0, abs(a - b) <= max(c, 1e-5)); \x7d
        case k_Math_OPERATION_SMOOTH_MIN: \x7b return smooth_min(a, b, c); \x7d
        case k_Math_OPERATION_SMOOTH_MAX: \x7b return -smooth_min(-a, -b, c); \x7d
        case k_Math_OPERATION_ROUND: \x7b return floor(a + 0.5); \x7d
        case k_Math_OPERATION_FLOOR: \x7b return floor(a); \x7d
        case k_Math_OPERATION_CEIL: \x7b return ceil(a); \x7d
        case k_Math_OPERATION_TRUNC: \x7b return trunc(a); \x7d
        case k_Math_OPERATION_FRACT: \x7b return a - floor(a); \x7d
        case k_Math_OPERATION_MODULO: \x7b return safe_modulo(a, b); \x7d
        case k_Math_OPERATION_FLOORED_MODULO: \x7b return select(0.0, a - floor(a / b) * b, b != 0.0); \x7d
        case k_Math_OPERATION_WRAP: \x7b return wrap_value(a, b, c); \x7d
        case k_Math_OPERATION_SNAP: \x7b return select(0.0, floor(a / b) * b, b != 0.0); \x7d
        case k_Math_OPERATION_PINGPONG: \x7b return pingpong(a, b); \x7d
        case k_Math_OPERATION_SINE: \x7b return sin(a); \x7d
        case k_Math_OPERATION_COSINE: \x7b return cos(a); \x7d
        case k_Math_OPERATION_TANGENT: \x7b return tan(a); \x7d
        case k_Math_OPERATION_ARCSINE: \x7b return asin(clamp(a, -1.0, 1.0)); \x7d
        case k_Math_OPERATION_ARCCOSINE: \x7b return acos(clamp(a, -1.0, 1.0)); \x7d
        case k_Math_OPERATION_ARCTANGENT: \x7b return atan(a); \x7d
        case k_Math_OPERATION_ARCTAN2: \x7b return atan2(a, b); \x7d
        case k_Math_OPERATION_SINH: \x7b return sinh(a); \x7d
        case k_Math_OPERATION_COSH: \x7b return cosh(a); \x7d
        case k_Math_OPERATION_TANH: \x7b return tanh(a); \x7d
        case k_Math_OPERATION_RADIANS: \x7b return radians(a); \x7d
        case k_Math_OPERATION_DEGREES: \x7b return degrees(a); \x7d
        default: \x7b return 0.0; \x7d
    \x7d
\x7d

fn Math_compute(
    n: ptr<function, Math>,
    operation: u32,
    use_clamp: bool,
    shading: ptr<function, ShadingContext>
) \x7b
    var v = math_op(operation, (*n).value.x, (*n).value_001.x, (*n).value_002.x);
    if use_clamp \x7b
        v = clamp(v, 0.0, 1.0);
    \x7d
    (*n).value = vec4f(v);
\x7d

fn VectorMath_compute(n: ptr<function, VectorMath>, operation: u32, shading: ptr<function, ShadingContext>) \x7b
    let a = (*n).vector.xyz;
    let b = (*n).vector_001.xyz;
    let c = (*n).vector_002.xyz;
    let s = (*n).scale.x;
    var v = vec3f(0.0);
    var f = 0.0;
    switch operation \x7b
        case k_VectorMath_OPERATION_ADD: \x7b v = a + b; \x7d
        case k_VectorMath_OPERATION_SUBTRACT: \x7b v = a - b; \x7d
        case k_VectorMath_OPERATION_MULTIPLY: \x7b v = a * b; \x7d
        case k_VectorMath_OPERATION_DIVIDE: \x7b
            v = vec3f(safe_divide(a.x, b.x), safe_divide(a.y, b.y), safe_divide(a.z, b.z));
        \x7d
        case k_VectorMath_OPERATION_MULTIPLY_ADD: \x7b v = a * b + c; \x7d
        case k_VectorMath_OPERATION_CROSS_PRODUCT: \x7b v = cross(a, b); \x7d
        case k_VectorMath_OPERATION_PROJECT: \x7b
            let len2 = dot(b, b);
            v = select(vec3f(0.0), b * (dot(a, b) / len2), len2 != 0.0);
        \x7d
        case k_VectorMath_OPERATION_REFLECT: \x7b v = reflect(a, safe_normalize(b, vec3f(0.0))); \x7d
        case k_VectorMath_OPERATION_REFRACT: \x7b v = refract(a, safe_normalize(b, vec3f(0.0)), s); \x7d
        case k_VectorMath_OPERATION_FACEFORWARD: \x7b v = faceForward(a, b, c); \x7d
        case k_VectorMath_OPERATION_DOT_PRODUCT: \x7b f = dot(a, b); \x7d
        case k_VectorMath_OPERATION_DISTANCE: \x7b f = distance(a, b); \x7d
        case k_VectorMath_OPERATION_LENGTH: \x7b f = length(a); \x7d
        case k_VectorMath_OPERATION_SCALE: \x7b v = a * s; \x7d
        case k_VectorMath_OPERATION_NORMALIZE: \x7b v = safe_normalize(a, vec3f(0.0)); \x7d
        case k_VectorMath_OPERATION_ABSOLUTE: \x7b v = abs(a); \x7d
        case k_VectorMath_OPERATION_MINIMUM: \x7b v = min(a, b); \x7d
        case k_VectorMath_OPERATION_MAXIMUM: \x7b v = max(a, b); \x7d
        case k_VectorMath_OPERATION_FLOOR: \x7b v = floor(a); \x7d
        case k_VectorMath_OPERATION_CEIL: \x7b v = ceil(a); \x7d
        case k_VectorMath_OPERATION_FRACTION: \x7b v = a - floor(a); \x7d
        case k_VectorMath_OPERATION_MODULO: \x7b
            v = vec3f(safe_modulo(a.x, b.x), safe_modulo(a.y, b.y), safe_modulo(a.z, b.z));
        \x7d
        case k_VectorMath_OPERATION_WRAP: \x7b
            v = vec3f(wrap_value(a.x, b.x, c.x), wrap_value(a.y, b.y, c.y), wrap_value(a.z, b.z, c.z));
        \x7d
        case k_VectorMath_OPERATION_SNAP: \x7b
            v = vec3f(
                select(0.0, floor(a.x / b.x) * b.x, b.x != 0.0),
                select(0.0, floor(a.y / b.y) * b.y, b.y != 0.0),
                select(0.0, floor(a.z / b.z) * b.z, b.z != 0.0)
            );
        \x7d
        case k_VectorMath_OPERATION_SINE: \x7b v = sin(a); \x7d
        case k_VectorMath_OPERATION_COSINE: \x7b v = cos(a); \x7d
        case k_VectorMath_OPERATION_TANGENT: \x7b v = tan(a); \x7d
        default: \x7b\x7d
    \x7d
    (*n).vector = vec4f(v, 0.0);
    (*n).value = vec4f(f);
\x7d

fn MapRange_compute(
    n: ptr<function, MapRange>,
    use_clamp: bool,
    data_type: u32,
    interpolation_type: u32,
    shading: ptr<function, ShadingContext>
) \x7b
    let from_min = (*n).from_min.x;
    let from_max = (*n).from_max.x;
    let to_min = (*n).to_min.x;
    let to_max = (*n).to_max.x;
    var t = safe_divide((*n).value.x - from_min, from_max - from_min);
    switch interpolation_type \x7b
        case k_MapRange_INTERPOLATION_TYPE_STEPPED: \x7b
            let steps = (*n).steps.x;
            t = select(0.0, floor(t * (steps + 1.0)) / steps, steps > 0.0);
        \x7d
        case k_MapRange_INTERPOLATION_TYPE_SMOOTHSTEP: \x7b
            t = clamp(t, 0.0, 1.0);
            t = t * t * (3.0 - 2.0 * t);
        \x7d
        case k_MapRange_INTERPOLATION_TYPE_SMOOTHERSTEP: \x7b
            t = clamp(t, 0.0, 1.0);
            t = t * t * t * (t * (t * 6.0 - 15.0) + 10.0);
        \x7d
        default: \x7b\x7d
    \x7d
    var r = to_min + t * (to_max - to_min);
    if use_clamp \x7b
        r = clamp(r, min(to_min, to_max), max(to_min, to_max));
    \x7d
    (*n).result = vec4f(r);
\x7d

fn SeparateXyz_compute(n: ptr<function, SeparateXyz>, shading: ptr<function, ShadingContext>) \x7b
    (*n).x = vec4f((*n).vector.x);
    (*n).y = vec4f((*n).vector.y);
    (*n).z = vec4f((*n).vector.z);
\x7d

fn CombineXyz_compute(n: ptr<function, CombineXyz>, shading: ptr<function, ShadingContext>) \x7b
    (*n).vector = vec4f((*n).x.x, (*n).y.x, (*n).z.x, 0.0);
\x7d

fn blackbody(temperature: f32) -> vec3f \x7b
    let k = clamp(temperature, 800.0, 12000.0) / 100.0;
    var rgb = vec3f(1.0);
    if k <= 66.0 \x7b
        rgb.g = 0.3900815787 * log(k) - 0.6318414437;
    \x7d else \x7b
        rgb.r = 1.2929361860 * pow(k - 60.0, -0.1332047592);
        rgb.g = 1.1298908608 * pow(k - 60.0, -0.0755148492);
    \x7d
    if k <= 19.0 \x7b
        rgb.b = 0.0;
    \x7d else if k < 66.0 \x7b
        rgb.b = 0.5432067891 * log(k - 10.0) - 1.1962540891;
    \x7d
    return srgb_to_linear(clamp(rgb, vec3f(0.0), vec3f(1.0)));
\x7d

fn Blackbody_compute(n: ptr<function, Blackbody>, shading: ptr<function, ShadingContext>) \x7b
    (*n).color = vec4f(blackbody((*n).temperature.x), 1.0);
\x7d

// Color

fn blend_colors(mode: u32, t: f32, a: vec3f, b: vec3f) -> vec3f \x7b
    let tm = 1.0 - t;
    switch mode \x7b
        case k_MixRgb_BLEND_TYPE_MIX: \x7b return mix(a, b, t); \x7d
        case k_MixRgb_BLEND_TYPE_ADD: \x7b return a + t * b; \x7d
        case k_MixRgb_BLEND_TYPE_MULTIPLY: \x7b return a * (tm + t * b); \x7d
        case k_MixRgb_BLEND_TYPE_SCREEN: \x7b
            return 1.0 - (tm + t * (1.0 - b)) * (1.0 - a);
        \x7d
        case k_MixRgb_BLEND_TYPE_OVERLAY: \x7b
            let lo = a * (tm + 2.0 * t * b);
            let hi = 1.0 - (tm + 2.0 * t * (1.0 - b)) * (1.0 - a);
            return select(hi, lo, a < vec3f(0.5));
        \x7d
        case k_MixRgb_BLEND_TYPE_SUBTRACT: \x7b return a - t * b; \x7d
        case k_MixRgb_BLEND_TYPE_DIVIDE: \x7b
            let q = select(a, tm * a + t * a / b, b != vec3f(0.0));
            return q;
        \x7d
        case k_MixRgb_BLEND_TYPE_DIFFERENCE: \x7b return mix(a, abs(a - b), t); \x7d
        case k_MixRgb_BLEND_TYPE_EXCLUSION: \x7b
            return max(mix(a, a + b - 2.0 * a * b, t), vec3f(0.0));
        \x7d
        case k_MixRgb_BLEND_TYPE_DARKEN: \x7b return mix(a, min(a, b), t); \x7d
        case k_MixRgb_BLEND_TYPE_LIGHTEN: \x7b return mix(a, max(a, b), t); \x7d
        case k_MixRgb_BLEND_TYPE_DODGE: \x7b
            let d = 1.0 - t * b;
            return select(vec3f(1.0), clamp(a / d, vec3f(0.0), vec3f(1.0)), (d > vec3f(0.0)) & (a != vec3f(0.0)));
        \x7d
        case k_MixRgb_BLEND_TYPE_BURN: \x7b
            let d = tm + t * b;
            return select(vec3f(0.0), clamp(1.0 - (1.0 - a) / d, vec3f(0.0), vec3f(1.0)), d > vec3f(0.0));
        \x7d
        case k_MixRgb_BLEND_TYPE_SOFT_LIGHT: \x7b
            let scr = 1.0 - (1.0 - b) * (1.0 - a);
            return tm * a + t * ((1.0 - a) * b * a + a * scr);
        \x7d
        case k_MixRgb_BLEND_TYPE_LINEAR_LIGHT: \x7b return a + t * (2.0 * b - 1.0); \x7d
        case k_MixRgb_BLEND_TYPE_HUE: \x7b
            let hb = rgb_to_hsv(b);
            if hb.y == 0.0 \x7b
                return a;
            \x7d
            let ha = rgb_to_hsv(a);
            return mix(a, hsv_to_rgb(vec3f(hb.x, ha.y, ha.z)), t);
        \x7d
        case k_MixRgb_BLEND_TYPE_SATURATION: \x7b
            let ha = rgb_to_hsv(a);
            if ha.y == 0.0 \x7b
                return a;
            \x7d
            let hb = rgb_to_hsv(b);
            return hsv_to_rgb(vec3f(ha.x, mix(ha.y, hb.y, t), ha.z));
        \x7d
        case k_MixRgb_BLEND_TYPE_VALUE: \x7b
            let ha = rgb_to_hsv(a);
            let hb = rgb_to_hsv(b);
            return hsv_to_rgb(vec3f(ha.x, ha.y, mix(ha.z, hb.z, t)));
        \x7d
        case k_MixRgb_BLEND_TYPE_COLOR: \x7b
            let hb = rgb_to_hsv(b);
            if hb.y == 0.0 \x7b
                return a;
            \x7d
            let ha = rgb_to_hsv(a);
            return mix(a, hsv_to_rgb(vec3f(hb.x, hb.y, ha.z)), t);
        \x7d
        default: \x7b return mix(a, b, t); \x7d
    \x7d
\x7d

fn MixRgb_compute(
    n: ptr<function, MixRgb>,
    blend_type: u32,
    use_clamp: bool,
    shading: ptr<function, ShadingContext>
) \x7b
    let t = clamp((*n).fac.x, 0.0, 1.0);
    var c = blend_colors(blend_type, t, (*n).color1.rgb, (*n).color2.rgb);
    if use_clamp \x7b
        c = clamp(c, vec3f(0.0), vec3f(1.0));
    \x7d
    (*n).color = vec4f(c, 1.0);
\x7d

// Blend type values are shared with MixRgb, so the same helper applies.
fn Mix_compute(
    n: ptr<function, Mix>,
    factor_mode: u32,
    blend_type: u32,
    clamp_factor: bool,
    clamp_result: bool,
    shading: ptr<function, ShadingContext>
) \x7b
    var t = (*n).factor_float.x;
    var tv = (*n).factor_vector.xyz;
    if factor_mode == k_Mix_FACTOR_MODE_UNIFORM \x7b
        tv = vec3f(t);
    \x7d
    if clamp_factor \x7b
        t = clamp(t, 0.0, 1.0);
        tv = clamp(tv, vec3f(0.0), vec3f(1.0));
    \x7d
    (*n).result_float = vec4f(mix((*n).a_float.x, (*n).b_float.x, t));
    (*n).result_vector = vec4f(mix((*n).a_vector.xyz, (*n).b_vector.xyz, tv), 0.0);
    var c = blend_colors(blend_type, t, (*n).a_color.rgb, (*n).b_color.rgb);
    if clamp_result \x7b
        c = clamp(c, vec3f(0.0), vec3f(1.0));
    \x7d
    (*n).result_color = vec4f(c, 1.0);
\x7d

fn ColorRamp_compute(
    n: ptr<function, ColorRamp>,
    count: i32,
    interpolation: u32,
    shading: ptr<function, ShadingContext>
) \x7b
    if count <= 0 \x7b
        (*n).color = vec4f(0.0);
        (*n).alpha = vec4f(0.0);
        return;
    \x7d
    let x = (*n).fac.x;
    var result = (*n).elements[0].color;
    if x > (*n).elements[count - 1].position \x7b
        result = (*n).elements[count - 1].color;
    \x7d else \x7b
        for (var i = 1; i < count; i++) \x7b
            let lo = (*n).elements[i - 1];
            let hi = (*n).elements[i];
            if x <= hi.position && x >= lo.position \x7b
                var t = safe_divide(x - lo.position, hi.position - lo.position);
                if interpolation == k_ColorRamp_INTERPOLATION_CONSTANT \x7b
                    t = 0.0;
                \x7d else if interpolation == k_ColorRamp_INTERPOLATION_EASE \x7b
                    t = t * t * (3.0 - 2.0 * t);
                \x7d
                result = mix(lo.color, hi.color, t);
                break;
            \x7d
        \x7d
    \x7d
    (*n).color = result;
    (*n).alpha = vec4f(result.a);
\x7d

fn Invert_compute(n: ptr<function, Invert>, shading: ptr<function, ShadingContext>) \x7b
    let c = (*n).color;
    (*n).color = vec4f(mix(c.rgb, 1.0 - c.rgb, (*n).fac.x), c.a);
\x7d

fn RgbToBw_compute(n: ptr<function, RgbToBw>, shading: ptr<function, ShadingContext>) \x7b
    (*n).val = vec4f(luminance((*n).color.rgb));
\x7d

fn SeparateColor_compute(n: ptr<function, SeparateColor>, mode: u32, shading: ptr<function, ShadingContext>) \x7b
    var c = (*n).color.rgb;
    if mode == k_SeparateColor_MODE_HSV \x7b
        c = rgb_to_hsv(c);
    \x7d else if mode == k_SeparateColor_MODE_HSL \x7b
        c = rgb_to_hsl(c);
    \x7d
    (*n).red = vec4f(c.x);
    (*n).green = vec4f(c.y);
    (*n).blue = vec4f(c.z);
\x7d

fn CombineColor_compute(n: ptr<function, CombineColor>, mode: u32, shading: ptr<function, ShadingContext>) \x7b
    var c = vec3f((*n).red.x, (*n).green.x, (*n).blue.x);
    if mode == k_CombineColor_MODE_HSV \x7b
        c = hsv_to_rgb(c);
    \x7d else if mode == k_CombineColor_MODE_HSL \x7b
        c = hsl_to_rgb(c);
    \x7d
    (*n).color = vec4f(c, 1.0);
\x7d

fn HueSaturation_compute(n: ptr<function, HueSaturation>, shading: ptr<function, ShadingContext>) \x7b
    let c = (*n).color;
    var hsv = rgb_to_hsv(c.rgb);
    hsv.x = fract(hsv.x + (*n).hue.x + 0.5);
    hsv.y = clamp(hsv.y * (*n).saturation.x, 0.0, 1.0);
    hsv.z *= (*n).value.x;
    let adjusted = max(hsv_to_rgb(hsv), vec3f(0.0));
    (*n).color = vec4f(mix(c.rgb, adjusted, (*n).fac.x), c.a);
\x7d

fn BrightnessContrast_compute(n: ptr<function, BrightnessContrast>, shading: ptr<function, ShadingContext>) \x7b
    let contrast = (*n).contrast.x;
    let a = 1.0 + contrast;
    let b = (*n).bright.x - contrast * 0.5;
    (*n).color = vec4f(max(a * (*n).color.rgb + b, vec3f(0.0)), (*n).color.a);
\x7d

fn Gamma_compute(n: ptr<function, Gamma>, shading: ptr<function, ShadingContext>) \x7b
    let c = (*n).color;
    (*n).color = vec4f(pow(max(c.rgb, vec3f(0.0)), vec3f((*n).gamma.x)), c.a);
\x7d

// Textures

fn apply_extension(uv: vec2f, extension: u32) -> vec2f \x7b
    switch extension \x7b
        case k_TexImage_EXTENSION_EXTEND: \x7b return clamp(uv, vec2f(0.0), vec2f(1.0)); \x7d
        case k_TexImage_EXTENSION_MIRROR: \x7b return 1.0 - abs(fract(uv * 0.5) * 2.0 - 1.0); \x7d
        default: \x7b return fract(uv); \x7d
    \x7d
\x7d

fn decode_texel(raw: vec4f, color_space: u32, pixel_format: u32) -> vec4f \x7b
    var c = raw;
    if pixel_format == k_TexImage_PIXEL_FORMAT_R \x7b
        c = vec4f(c.rrr, 1.0);
    \x7d
    if color_space == k_TexImage_COLOR_SPACE_SRGB \x7b
        c = vec4f(srgb_to_linear(c.rgb), c.a);
    \x7d
    return c;
\x7d

fn TexImage_compute(
    n: ptr<function, TexImage>,
    slot: u32,
    interpolation: u32,
    projection: u32,
    extension: u32,
    alpha: u32,
    color_space: u32,
    pixel_format: u32,
    shading: ptr<function, ShadingContext>
) \x7b
    let p = (*n).vector.xyz;
    var uv = p.xy;
    if projection == k_TexImage_PROJECTION_SPHERE \x7b
        let d = safe_normalize(p - 0.5, vec3f(0.0, 0.0, 1.0));
        uv = vec2f(atan2(d.y, -d.x) / TWO_PI + 0.5, atan2(d.z, length(d.xy)) / PI + 0.5);
    \x7d else if projection == k_TexImage_PROJECTION_TUBE \x7b
        let d = p - 0.5;
        uv = vec2f(atan2(d.y, -d.x) / TWO_PI + 0.5, p.z);
    \x7d

    if extension == k_TexImage_EXTENSION_CLIP && (any(uv < vec2f(0.0)) || any(uv > vec2f(1.0))) \x7b
        (*n).color = vec4f(0.0);
        (*n).alpha = vec4f(0.0);
        return;
    \x7d
    uv = apply_extension(uv, extension);
    uv.y = 1.0 - uv.y;

    let nearest = interpolation == k_TexImage_INTERPOLATION_CLOSEST;
    var c = decode_texel(sample_texture(slot, uv, nearest), color_space, pixel_format);
    if alpha == k_TexImage_ALPHA_PREMULTIPLIED && c.a > 0.0 \x7b
        c = vec4f(c.rgb / c.a, c.a);
    \x7d else if alpha == k_TexImage_ALPHA_NONE \x7b
        c.a = 1.0;
    \x7d
    (*n).color = vec4f(c.rgb, 1.0);
    (*n).alpha = vec4f(c.a);
\x7d

fn TexEnvironment_compute(
    n: ptr<function, TexEnvironment>,
    slot: u32,
    interpolation: u32,
    projection: u32,
    color_space: u32,
    pixel_format: u32,
    shading: ptr<function, ShadingContext>
) \x7b
    let d = safe_normalize((*n).vector.xyz, vec3f(0.0, 0.0, 1.0));
    var uv: vec2f;
    if projection == k_TexEnvironment_PROJECTION_MIRROR_BALL \x7b
        var m = d;
        m.y -= 1.0;
        let div = 2.0 * sqrt(max(-0.5 * m.y, 0.0));
        if div > 0.0 \x7b
            m /= div;
        \x7d
        uv = vec2f(0.5 * (m.x + 1.0), 0.5 * (m.z + 1.0));
    \x7d else \x7b
        uv = vec2f(-atan2(d.y, d.x) / TWO_PI + 0.5, atan2(d.z, length(d.xy)) / PI + 0.5);
    \x7d
    uv = vec2f(fract(uv.x), clamp(1.0 - uv.y, 0.0, 1.0));

    let nearest = interpolation == k_TexEnvironment_INTERPOLATION_CLOSEST;
    let c = decode_texel(sample_texture(slot, uv, nearest), color_space, pixel_format);
    (*n).color = vec4f(c.rgb, 1.0);
    (*n).alpha = vec4f(c.a);
\x7d

fn TexNishita_compute(n: ptr<function, TexNishita>, slot: u32, shading: ptr<function, ShadingContext>) \x7b
    let dir = safe_normalize((*n).vector.xyz, vec3f(0.0, 0.0, 1.0));
    let sun_elevation = (*n).data[6];
    let sun_rotation = (*n).data[7];
    let angular_diameter = (*n).data[8];
    let sun_intensity = (*n).data[9];
    let theta = acos(clamp(dir.z, -1.0, 1.0));
    let phi = atan2(dir.x, dir.y);

    var rgb = vec3f(0.0);
    var x = (phi + PI + sun_rotation) / TWO_PI;
    if x > 1.0 \x7b
        x -= 1.0;
    \x7d
    if dir.z >= 0.0 \x7b
        let rot = sun_rotation + 0.5 * PI;
        let sun_dir = vec3f(cos(sun_elevation) * cos(rot), cos(sun_elevation) * sin(rot), sin(sun_elevation));
        let angle = 2.0 * atan2(length(dir - sun_dir), length(dir + sun_dir));
        let half_angular = angular_diameter * 0.5;
        let dir_elevation = 0.5 * PI - theta;

        if angle < half_angular && angular_diameter > 0.0 \x7b
            let bottom = vec3f((*n).data[0], (*n).data[1], (*n).data[2]);
            let top = vec3f((*n).data[3], (*n).data[4], (*n).data[5]);
            if sun_elevation - half_angular > 0.0 \x7b
                let y = (dir_elevation - sun_elevation) / angular_diameter + 0.5;
                rgb = mix(bottom, top, y) * sun_intensity;
            \x7d else if sun_elevation + half_angular > 0.0 \x7b
                let y = dir_elevation / (sun_elevation + half_angular);
                rgb = mix(bottom, top, y) * sun_intensity;
            \x7d
            let fraction = angle / half_angular;
            rgb *= 1.0 - 0.6 * (1.0 - sqrt(max(1.0 - fraction * fraction, 0.0)));
        \x7d else \x7b
            let y = sqrt(max(dir_elevation, 0.0) / (0.5 * PI));
            rgb = sample_texture(slot, vec2f(x, y), false).rgb;
        \x7d
    \x7d else if dir.z >= -0.4 \x7b
        // Fade the horizon row into a black ground.
        let fade = pow(1.0 + dir.z * 2.5, 3.0);
        rgb = sample_texture(slot, vec2f(x, 1e-3), false).rgb * fade;
    \x7d
    (*n).color = vec4f(rgb * (*n).scale, 1.0);
\x7d

fn TexChecker_compute(n: ptr<function, TexChecker>, shading: ptr<function, ShadingContext>) \x7b
    let p = ((*n).vector.xyz * (*n).scale.x + 0.000001) * 0.999999;
    let i = vec3i(floor(p));
    let odd = (abs(i.x) % 2 == abs(i.y) % 2) == (abs(i.z) % 2 == 1);
    if odd \x7b
        (*n).color = (*n).color1;
        (*n).fac = vec4f(1.0);
    \x7d else \x7b
        (*n).color = (*n).color2;
        (*n).fac = vec4f(0.0);
    \x7d
\x7d

fn hash_cell(p: vec3i) -> u32 \x7b
    var h = pcg_hash(bitcast<u32>(p.x));
    h = pcg_hash(h ^ bitcast<u32>(p.y));
    return pcg_hash(h ^ bitcast<u32>(p.z));
\x7d

fn gradient_dot(h: u32, f: vec3f) -> f32 \x7b
    let g = h & 15u;
    let u = select(f.y, f.x, g < 8u);
    let v = select(select(f.z, f.x, g == 12u || g == 14u), f.y, g < 4u);
    return select(-u, u, (g & 1u) == 0u) + select(-v, v, (g & 2u) == 0u);
\x7d

fn perlin(p: vec3f) -> f32 \x7b
    let i = vec3i(floor(p));
    let f = p - floor(p);
    let u = f * f * f * (f * (f * 6.0 - 15.0) + 10.0);
    let n000 = gradient_dot(hash_cell(i), f);
    let n100 = gradient_dot(hash_cell(i + vec3i(1, 0, 0)), f - vec3f(1.0, 0.0, 0.0));
    let n010 = gradient_dot(hash_cell(i + vec3i(0, 1, 0)), f - vec3f(0.0, 1.0, 0.0));
    let n110 = gradient_dot(hash_cell(i + vec3i(1, 1, 0)), f - vec3f(1.0, 1.0, 0.0));
    let n001 = gradient_dot(hash_cell(i + vec3i(0, 0, 1)), f - vec3f(0.0, 0.0, 1.0));
    let n101 = gradient_dot(hash_cell(i + vec3i(1, 0, 1)), f - vec3f(1.0, 0.0, 1.0));
    let n011 = gradient_dot(hash_cell(i + vec3i(0, 1, 1)), f - vec3f(0.0, 1.0, 1.0));
    let n111 = gradient_dot(hash_cell(i + vec3i(1, 1, 1)), f - vec3f(1.0, 1.0, 1.0));
    let x00 = mix(n000, n100, u.x);
    let x10 = mix(n010, n110, u.x);
    let x01 = mix(n001, n101, u.x);
    let x11 = mix(n011, n111, u.x);
    return mix(mix(x00, x10, u.y), mix(x01, x11, u.y), u.z);
\x7d

// Fractal noise in [0, 1].
fn fbm(p: vec3f, detail: f32, roughness: f32) -> f32 \x7b
    let octaves = clamp(detail, 0.0, 15.0);
    var amplitude = 1.0;
    var frequency = 1.0;
    var sum = 0.0;
    var total = 0.0;
    let whole = i32(floor(octaves));
    for (var i = 0; i <= whole; i++) \x7b
        sum += perlin(p * frequency) * amplitude;
        total += amplitude;
        amplitude *= clamp(roughness, 0.0, 1.0);
        frequency *= 2.0;
    \x7d
    let rest = octaves - floor(octaves);
    if rest > 0.0 \x7b
        let extra = perlin(p * frequency) * amplitude;
        sum = mix(sum, sum + extra, rest);
        total = mix(total, total + amplitude, rest);
    \x7d
    return 0.5 * safe_divide(sum, total) + 0.5;
\x7d

fn TexNoise_compute(n: ptr<function, TexNoise>, dimension: u32, shading: ptr<function, ShadingContext>) \x7b
    var p = (*n).vector.xyz * (*n).scale.x;
    let w = (*n).w.x * (*n).scale.x;
    switch dimension \x7b
        case k_TexNoise_DIMENSION_1D: \x7b p = vec3f(w, 0.0, 0.0); \x7d
        case k_TexNoise_DIMENSION_2D: \x7b p = vec3f(p.xy, 0.0); \x7d
        case k_TexNoise_DIMENSION_4D: \x7b p += vec3f(w * 0.7, w * 1.3, w * 0.5); \x7d
        default: \x7b\x7d
    \x7d
    let distortion = (*n).distortion.x;
    if distortion != 0.0 \x7b
        p += vec3f(
            perlin(p + vec3f(13.5)) * distortion,
            perlin(p + vec3f(-7.2)) * distortion,
            perlin(p + vec3f(3.1)) * distortion
        );
    \x7d
    let detail = (*n).detail.x;
    let roughness = (*n).roughness.x;
    let fac = fbm(p, detail, roughness);
    (*n).fac = vec4f(fac);
    (*n).color = vec4f(
        fac,
        fbm(p + vec3f(98.2, 12.7, 41.1), detail, roughness),
        fbm(p + vec3f(3.9, 71.4, 27.3), detail, roughness),
        1.0
    );
\x7d

fn TexGradient_compute(n: ptr<function, TexGradient>, gradient_type: u32, shading: ptr<function, ShadingContext>) \x7b
    let p = (*n).vector.xyz;
    var f = 0.0;
    switch gradient_type \x7b
        case k_TexGradient_TYPE_QUADRATIC: \x7b
            let r = max(p.x, 0.0);
            f = r * r;
        \x7d
        case k_TexGradient_TYPE_EASING: \x7b
            let r = clamp(p.x, 0.0, 1.0);
            let t = r * r;
            f = 3.0 * t - 2.0 * t * r;
        \x7d
        case k_TexGradient_TYPE_DIAGONAL: \x7b f = (p.x + p.y) * 0.5; \x7d
        case k_TexGradient_TYPE_RADIAL: \x7b f = atan2(p.y, p.x) / TWO_PI + 0.5; \x7d
        case k_TexGradient_TYPE_QUADRATIC_SPHERE: \x7b
            let r = max(0.999999 - length(p), 0.0);
            f = r * r;
        \x7d
        case k_TexGradient_TYPE_SPHERICAL: \x7b f = max(0.999999 - length(p), 0.0); \x7d
        default: \x7b f = p.x; \x7d
    \x7d
    f = clamp(f, 0.0, 1.0);
    (*n).fac = vec4f(f);
    (*n).color = vec4f(vec3f(f), 1.0);
\x7d

fn TexWave_compute(
    n: ptr<function, TexWave>,
    wave_type: u32,
    direction: u32,
    profile: u32,
    shading: ptr<function, ShadingContext>
) \x7b
    let p = ((*n).vector.xyz * (*n).scale.x + 0.000001) * 0.999999;
    var v = 0.0;
    if wave_type == k_TexWave_TYPE_BANDS \x7b
        switch direction \x7b
            case k_TexWave_DIRECTION_Y: \x7b v = p.y * 20.0; \x7d
            case k_TexWave_DIRECTION_Z: \x7b v = p.z * 20.0; \x7d
            case k_TexWave_DIRECTION_DIAGONAL: \x7b v = (p.x + p.y + p.z) * 10.0; \x7d
            default: \x7b v = p.x * 20.0; \x7d
        \x7d
    \x7d else \x7b
        var r = p;
        switch direction \x7b
            case k_TexWave_DIRECTION_X: \x7b r *= vec3f(0.0, 1.0, 1.0); \x7d
            case k_TexWave_DIRECTION_Y: \x7b r *= vec3f(1.0, 0.0, 1.0); \x7d
            case k_TexWave_DIRECTION_Z: \x7b r *= vec3f(1.0, 1.0, 0.0); \x7d
            default: \x7b\x7d
        \x7d
        v = length(r) * 20.0;
    \x7d
    v += (*n).phase_offset.x;
    let distortion = (*n).distortion.x;
    if distortion != 0.0 \x7b
        let noise = fbm(p * (*n).detail_scale.x, (*n).detail.x, (*n).detail_roughness.x);
        v += distortion * (2.0 * noise - 1.0);
    \x7d
    var f = 0.0;
    switch profile \x7b
        case k_TexWave_PROFILE_SAW: \x7b
            let t = v / TWO_PI;
            f = t - floor(t);
        \x7d
        case k_TexWave_PROFILE_TRI: \x7b
            let t = v / TWO_PI;
            f = abs(t - floor(t + 0.5)) * 2.0;
        \x7d
        default: \x7b f = 0.5 + 0.5 * sin(v - 0.5 * PI); \x7d
    \x7d
    (*n).fac = vec4f(f);
    (*n).color = vec4f(vec3f(f), 1.0);
\x7d

// Vector

fn euler_to_matrix(r: vec3f) -> mat3x3f \x7b
    let cx = cos(r.x);
    let sx = sin(r.x);
    let cy = cos(r.y);
    let sy = sin(r.y);
    let cz = cos(r.z);
    let sz = sin(r.z);
    let rx = mat3x3f(1.0, 0.0, 0.0, 0.0, cx, sx, 0.0, -sx, cx);
    let ry = mat3x3f(cy, 0.0, -sy, 0.0, 1.0, 0.0, sy, 0.0, cy);
    let rz = mat3x3f(cz, sz, 0.0, -sz, cz, 0.0, 0.0, 0.0, 1.0);
    return rz * ry * rx;
\x7d

fn Mapping_compute(n: ptr<function, Mapping>, vector_type: u32, shading: ptr<function, ShadingContext>) \x7b
    let v = (*n).vector.xyz;
    let location = (*n).location.xyz;
    let scale = (*n).scale.xyz;
    let rotation = euler_to_matrix((*n).rotation.xyz);
    var out = vec3f(0.0);
    switch vector_type \x7b
        case k_Mapping_TYPE_TEXTURE: \x7b
            let safe_scale = select(vec3f(1.0), scale, scale != vec3f(0.0));
            out = (transpose(rotation) * (v - location)) / safe_scale;
        \x7d
        case k_Mapping_TYPE_VECTOR: \x7b out = rotation * (v * scale); \x7d
        case k_Mapping_TYPE_NORMAL: \x7b
            let safe_scale = select(vec3f(1.0), scale, scale != vec3f(0.0));
            out = safe_normalize(rotation * (v / safe_scale), vec3f(0.0));
        \x7d
        default: \x7b out = rotation * (v * scale) + location; \x7d
    \x7d
    (*n).vector = vec4f(out, 0.0);
\x7d

fn NormalMap_compute(n: ptr<function, NormalMap>, space: u32, shading: ptr<function, ShadingContext>) \x7b
    let c = 2.0 * (*n).color.rgb - 1.0;
    let base = (*shading).normal;
    var mapped: vec3f;
    if space == k_NormalMap_SPACE_TANGENT \x7b
        let t = (*shading).tangent;
        let b = cross(base, t);
        mapped = c.x * t + c.y * b + c.z * base;
    \x7d else if space == k_NormalMap_SPACE_BLENDER_OBJECT || space == k_NormalMap_SPACE_BLENDER_WORLD \x7b
        mapped = vec3f(c.x, -c.y, -c.z);
    \x7d else \x7b
        mapped = c;
    \x7d
    mapped = safe_normalize(mapped, base);
    let strength = max((*n).strength.x, 0.0);
    let result = safe_normalize(base + (mapped - base) * strength, base);
    (*n).normal = vec4f(result, 0.0);
\x7d

// Input

fn TextureCoordinate_compute(n: ptr<function, TextureCoordinate>, shading: ptr<function, ShadingContext>) \x7b
    (*n).generated = vec4f((*shading).generated, 0.0);
    (*n).normal = vec4f((*shading).normal, 0.0);
    (*n).uv = vec4f((*shading).uv, 0.0);
    (*n).object = vec4f((*shading).object, 0.0);
    (*n).camera = vec4f(-(*shading).wo * (*shading).distance, 0.0);
    (*n).window = vec4f(0.0);
    (*n).reflection = vec4f(reflect(-(*shading).wo, (*shading).normal), 0.0);
\x7d

fn NewGeometry_compute(n: ptr<function, NewGeometry>, shading: ptr<function, ShadingContext>) \x7b
    (*n).position = vec4f((*shading).position, 0.0);
    (*n).normal = vec4f((*shading).normal, 0.0);
    (*n).tangent = vec4f((*shading).tangent, 0.0);
    (*n).true_normal = vec4f((*shading).true_normal, 0.0);
    (*n).incoming = vec4f((*shading).wo, 0.0);
    (*n).parametric = vec4f((*shading).uv, 0.0);
    (*n).backfacing = vec4f(select(0.0, 1.0, (*shading).backfacing));
    (*n).pointiness = vec4f(0.5);
    (*n).random_per_island = vec4f(0.0);
\x7d

fn flag_value(flags: u32, bit: u32) -> vec4f \x7b
    return vec4f(select(0.0, 1.0, (flags & bit) != 0u));
\x7d

fn LightPath_compute(n: ptr<function, LightPath>, shading: ptr<function, ShadingContext>) \x7b
    let flags = (*shading).ray_flags;
    let depth = f32((*shading).ray_depth);
    (*n).is_camera_ray = flag_value(flags, RAY_CAMERA);
    (*n).is_shadow_ray = flag_value(flags, RAY_SHADOW);
    (*n).is_diffuse_ray = flag_value(flags, RAY_DIFFUSE);
    (*n).is_glossy_ray = flag_value(flags, RAY_GLOSSY);
    (*n).is_singular_ray = flag_value(flags, RAY_SINGULAR);
    (*n).is_reflection_ray = flag_value(flags, RAY_REFLECTION);
    (*n).is_transmission_ray = flag_value(flags, RAY_TRANSMISSION);
    (*n).ray_length = vec4f((*shading).distance);
    (*n).ray_depth = vec4f(depth);
    (*n).diffuse_depth = vec4f(depth);
    (*n).glossy_depth = vec4f(depth);
    (*n).transparent_depth = vec4f(0.0);
    (*n).transmission_depth = vec4f(0.0);
\x7d

fn fresnel_dielectric_cos(cosi: f32, eta: f32) -> f32 \x7b
    let c = abs(cosi);
    var g = eta * eta - 1.0 + c * c;
    if g <= 0.0 \x7b
        return 1.0;
    \x7d
    g = sqrt(g);
    let a = (g - c) / (g + c);
    let b = (c * (g + c) - 1.0) / (c * (g - c) + 1.0);
    return 0.5 * a * a * (1.0 + b * b);
\x7d

fn Fresnel_compute(n: ptr<function, Fresnel>, shading: ptr<function, ShadingContext>) \x7b
    let normal = safe_normalize((*n).normal.xyz, (*shading).normal);
    let ior = max((*n).ior.x, 1e-5);
    let eta = select(ior, 1.0 / ior, (*shading).backfacing);
    (*n).fac = vec4f(fresnel_dielectric_cos(dot((*shading).wo, normal), eta));
\x7d

fn LayerWeight_compute(n: ptr<function, LayerWeight>, shading: ptr<function, ShadingContext>) \x7b
    let normal = safe_normalize((*n).normal.xyz, (*shading).normal);
    let blend = clamp((*n).blend.x, 0.0, 1.0 - 1e-5);
    let cosi = dot((*shading).wo, normal);
    let eta = select(1.0 / (1.0 - blend), 1.0 - blend, (*shading).backfacing);
    (*n).fresnel = vec4f(fresnel_dielectric_cos(cosi, eta));
    let exponent = select(0.5 / (1.0 - blend), 2.0 * blend, blend < 0.5);
    (*n).facing = vec4f(1.0 - pow(abs(cosi), exponent));
\x7d

fn UvMap_compute(n: ptr<function, UvMap>, shading: ptr<function, ShadingContext>) \x7b
    (*n).uv = vec4f((*shading).uv, 0.0);
\x7d

fn NormalProduct_compute(n: ptr<function, NormalProduct>, shading: ptr<function, ShadingContext>) \x7b
    let normal = safe_normalize((*n).normal.xyz, (*shading).normal);
    (*n).dot = vec4f(dot(normal, (*shading).normal));
\x7d

// Shaders

fn Emission_compute(n: ptr<function, Emission>, shading: ptr<function, ShadingContext>) \x7b
    (*n).emission = closure_from_data((*n).color * (*n).strength.x);
\x7d

fn Background_compute(n: ptr<function, Background>, shading: ptr<function, ShadingContext>) \x7b
    (*n).background = closure_from_data((*n).color * (*n).strength.x);
\x7d

fn BsdfPrincipled_compute(
    n: ptr<function, BsdfPrincipled>,
    distribution: u32,
    subsurface_method: u32,
    shading: ptr<function, ShadingContext>
) \x7b
    let base = max((*n).base_color.rgb, vec3f(0.0));
    let metallic = clamp((*n).metallic.x, 0.0, 1.0);
    let transmission = clamp((*n).transmission.x, 0.0, 1.0);
    let alpha = clamp((*n).alpha.x, 0.0, 1.0);
    let ior = select(1.45, (*n).ior.x, (*n).ior.x > 0.0);
    // Older exports carry a scalar tint where zero means untinted.
    let tint_raw = (*n).specular_tint.rgb;
    let tint = select(tint_raw, vec3f(1.0), all(tint_raw == vec3f(0.0)));
    let r0 = (ior - 1.0) / (ior + 1.0);
    let f0 = min(r0 * r0 * 2.0 * max((*n).specular.x, 0.0), 1.0) * tint;

    var c = closure_none();
    c.diffuse = base * (1.0 - metallic) * (1.0 - transmission);
    c.specular = mix(f0, base, metallic) + vec3f(0.04 * clamp((*n).clearcoat.x, 0.0, 1.0));
    c.transmission = base * (1.0 - metallic) * transmission;
    c.emission = max((*n).emission.rgb, vec3f(0.0)) * (*n).emission_strength.x;
    c.roughness = clamp((*n).roughness.x, 0.0, 1.0);
    c.ior = ior;
    c = closure_scale(c, alpha);
    c.transparent = vec3f(1.0 - alpha);
    (*n).bsdf = c;
\x7d

fn BsdfDiffuse_compute(n: ptr<function, BsdfDiffuse>, shading: ptr<function, ShadingContext>) \x7b
    (*n).bsdf = closure_diffuse((*n).color);
\x7d

fn BsdfGlossy_compute(n: ptr<function, BsdfGlossy>, distribution: u32, shading: ptr<function, ShadingContext>) \x7b
    var c = closure_none();
    c.specular = max((*n).color.rgb, vec3f(0.0));
    c.roughness = clamp((*n).roughness.x, 0.0, 1.0);
    (*n).bsdf = c;
\x7d

fn BsdfGlass_compute(n: ptr<function, BsdfGlass>, distribution: u32, shading: ptr<function, ShadingContext>) \x7b
    var c = closure_none();
    c.transmission = max((*n).color.rgb, vec3f(0.0));
    c.roughness = clamp((*n).roughness.x, 0.0, 1.0);
    c.ior = select(1.45, (*n).ior.x, (*n).ior.x > 0.0);
    (*n).bsdf = c;
\x7d

fn BsdfTransparent_compute(n: ptr<function, BsdfTransparent>, shading: ptr<function, ShadingContext>) \x7b
    var c = closure_none();
    c.transparent = max((*n).color.rgb, vec3f(0.0));
    (*n).bsdf = c;
\x7d

fn AddShader_compute(n: ptr<function, AddShader>, shading: ptr<function, ShadingContext>) \x7b
    (*n).shader = closure_add((*n).shader, (*n).shader_001);
\x7d

fn MixShader_compute(n: ptr<function, MixShader>, shading: ptr<function, ShadingContext>) \x7b
    (*n).shader = closure_mix((*n).shader, (*n).shader_001, (*n).fac.x);
\x7d
"

end Candela.Shader.Static
